import SpriteStage.Block.Builder
import SpriteStage.CommandLine.Folder
import SpriteStage.Main
import SpriteStage.Proofs.Machine.Broadcast
import SpriteStage.Proofs.Machine.Halt
import SpriteStage.Proofs.Machine.Stopping
import SpriteStage.Proofs.Compile.Grammar
import SpriteStage.Proofs.Compile.Hats
import SpriteStage.Proofs.Block.Links
import SpriteStage.Proofs.Compile.Footprint
import SpriteStage.Proofs.Compile.MouseSync
import SpriteStage.Proofs.Compile.Locality
import SpriteStage.Proofs.Compile.Enumeration
import SpriteStage.Proofs.Compile.Uses
import SpriteStage.Proofs.Compile.Plain
import SpriteStage.Proofs.Compile.Yielding
import SpriteStage.Proofs.Script.Mouse
import SpriteStage.Proofs.Message.Registry
import SpriteStage.Proofs.Machine.Listening
import SpriteStage.Proofs.Machine.Turns
import SpriteStage.Proofs.Machine.Quiet
import SpriteStage.Proofs.Machine.MouseRequests
import SpriteStage.Proofs.Json.Record
import SpriteStage.Proofs.Script.RoundTrip
import SpriteStage.Proofs.Project.RoundTrip
import SpriteStage.Proofs.Json.Ordered
import SpriteStage.Proofs.Project.Blocks
import SpriteStage.Proofs.Project.Targets
import SpriteStage.Proofs.Project.Monitors
import SpriteStage.Proofs.Host.RoundTrip
import SpriteStage.Proofs.Machine.Costumes
import SpriteStage.Proofs.Machine.Backdrops
import SpriteStage.Proofs.Machine.Accounting
import SpriteStage.Proofs.Machine.Reports
import SpriteStage.Proofs.Machine.Atomic
import SpriteStage.Proofs.Compile.NumericSlots
import SpriteStage.Proofs.Machine.Speech
import SpriteStage.Proofs.Script.Draws
import SpriteStage.Proofs.Script.Comparison
import SpriteStage.Proofs.World.Variables
import SpriteStage.Proofs.Machine.Variables
import SpriteStage.Proofs.Text.KeyName
import SpriteStage.Proofs.Message.KeyHats
import SpriteStage.Proofs.Timeline.Grammar
import SpriteStage.Proofs.Timeline.Lines
import SpriteStage.Proofs.Timeline.Clicks
import SpriteStage.Proofs.Machine.Keys
import SpriteStage.Proofs.Number.Arithmetic
import SpriteStage.Proofs.Number.Rational
import SpriteStage.Proofs.Number.Rounding
import SpriteStage.Proofs.World.Random
import SpriteStage.Proofs.World.Bounce
import SpriteStage.Proofs.Compile.Defaults
import SpriteStage.Proofs.Machine.Glides
