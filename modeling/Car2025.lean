import Car2025.Lib.CFloat
import Car2025.Lib.Single
import Car2025.Lib.Outcome
import Car2025.Lib.Past
import Car2025.Lib.Hysteresis
import Car2025.Broder
import Car2025.UserMath
import Car2025.LineShape
import Car2025.Vision.GetSegment
import Car2025.Vision.Segment.Band
import Car2025.Vision.Segment.Scan
import Car2025.Vision.Segment.Table
import Car2025.Vision.Segment.Partition
import Car2025.Vision.Segment.Rows
import Car2025.Vision.Segment.Mirror
import Car2025.Vision.SymbolJudge
import Car2025.Car
import Car2025.Vision.Lines
import Car2025.Vision.FeaturePoint
import Car2025.Vision.RSHandle
import Car2025.Vision.Safety
import Car2025.Vision.FeatureRows
import Car2025.Vision.Progress
import Car2025.Vision.History
import Car2025.Vision.Simulation
import Car2025.Vision.Road
import Car2025.Lib.Runs
import Car2025.Lib.Refine
import Car2025.Lib.Reach
import Car2025.Vision.Crossing
import Car2025.Vision.Corner
import Car2025.Vision.Range
import Car2025.Vision.Extend
import Car2025.Vision.Uninitialised
import Car2025.Vision.FindMyLine
import Car2025.Vision.Zebra
import Car2025.Vision.SymRate
import Car2025.Vision.Binary
import Car2025.Vision.Edges
import Car2025.Vision.Borders
import Car2025.Vision.Reads
import Car2025.Vision.CirculePass
import Car2025.Vision.Threshold
import Car2025.Lib.Framing
import Car2025.Link.MCXvision
import Car2025.Link.Decode
import Car2025.Link.Art
import Car2025.Link.Resync
import Car2025.Link.Tail
import Car2025.Link.Mode
import Car2025.Lib.Slew
import Car2025.Lib.Saturate
import Car2025.Lib.Climb
import Car2025.Lib.TwoClass
import Car2025.Lib.Count
import Car2025.Lib.Fill
import Car2025.Lib.Ramp
import Car2025.PID
import Car2025.PIDRun
import Car2025.StepPID
import Car2025.Motor
import Car2025.CarMotion
import Car2025.Lib.LowPass
import Car2025.Encoder
import Car2025.Attitude
import Car2025.Drift
import Car2025.Classify
import Car2025.Lib.Layout
import Car2025.Display.Text
import Car2025.Display.Screen
import Car2025.Display.Result
import Car2025.Display.Reading
import Car2025.StepMotor
import Car2025.Button
import Car2025.ButtonPress
import Car2025.PushBox.Program
import Car2025.PushBox.Story
import Car2025.PushBox.Vote
import Car2025.PushBox.Wait
import Car2025.Lib.Debounce
import Car2025.PushBox.Push
import Car2025.PushBox.Verdict
import Car2025.PushBox.Return
import Car2025.Lib.Semaphore
import Car2025.Handover.Program
import Car2025.Handover.Phase
import Car2025.Handover.Cycle
import Car2025.TraceLine
import Car2025.Envelope
import Car2025.Whole.Frame
import Car2025.Whole.Program
import Car2025.Whole.Cycle
import Car2025.Whole.Held
import Car2025.Whole.Sound
import Car2025.Whole.Safety
import Car2025.Whole.Start
import Car2025.Whole.Finish
import Car2025.Whole.Turn
import Car2025.Whole.Speed
import Car2025.Whole.Position
import Car2025.Whole.Mission
import Car2025.Whole.Results
import Car2025.Whole.Onward
