import Sidewalk.Scheduler.Latency
import Sidewalk.Scheduler.Safety
import Sidewalk.Bridge.RecvLine
import Sidewalk.Bridge.Report
import Sidewalk.Robot.Arena
import Sidewalk.Analysis.TruePrr
import Sidewalk.Scenario.Window
import Sidewalk.Scenario.Bitmap
import Sidewalk.Cosim.Neighbors
import Sidewalk.Cosim.PacketRatio
import Sidewalk.Cosim.Footprint
import Sidewalk.Cosim.Launch
import Sidewalk.Analysis.Summary
import Sidewalk.Analysis.Animation
import Sidewalk.Analysis.Validation
import Sidewalk.Bridge.Pacing
