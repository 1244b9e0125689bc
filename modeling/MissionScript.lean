import MissionScript.Text.FileStem
import MissionScript.Json.Reading
import MissionScript.Json.Writing
import MissionScript.Json.Fields
import MissionScript.Formula.Parsing
import MissionScript.Formula.Printing
import MissionScript.Evaluation.Basic
import MissionScript.Game.Simulation
import MissionScript.Goal.Tracker
import MissionScript.Event.Tick
import MissionScript.Mission.Flight
import MissionScript.Disk.Memory
import MissionScript.Save.Store
import MissionScript.Main
import MissionScript.Proofs.Formula.RoundTrip
import MissionScript.Proofs.Typing.Soundness
import MissionScript.Proofs.Mission.Settled
import MissionScript.Proofs.Mission.Career
import MissionScript.Proofs.Event.Safety
import MissionScript.Proofs.Goal.History
import MissionScript.Proofs.Formula.Acceptance
import MissionScript.Proofs.Evaluation.Journey
import MissionScript.Proofs.Save.Commit
import MissionScript.Proofs.Mission.Scopes
import MissionScript.Proofs.Mission.Answers
import MissionScript.Proofs.Mission.Latches
import MissionScript.Proofs.Event.Chain
import MissionScript.Proofs.Mission.Chaining
import MissionScript.Proofs.Goal.Pass
import MissionScript.Proofs.Goal.Outcome
import MissionScript.Proofs.Event.Notes
import MissionScript.Proofs.Mission.Story
import MissionScript.Proofs.Mission.Score
import MissionScript.Proofs.Game.Life
import MissionScript.Proofs.Evaluation.Frame
import MissionScript.Proofs.Evaluation.Repetition
import MissionScript.Proofs.Evaluation.Locality
import MissionScript.Proofs.Mission.Directives
import MissionScript.Proofs.Variable.History
import MissionScript.Proofs.Mission.Finiteness
import MissionScript.Proofs.Save.Logbook
import MissionScript.Proofs.Formula.Leniency
import MissionScript.Proofs.Evaluation.Recognition
import MissionScript.Proofs.Mission.Choice
import MissionScript.Proofs.Evaluation.Depth
import MissionScript.Proofs.Mission.Ending
import MissionScript.Proofs.Mission.Start
import MissionScript.Proofs.Mission.Exhaustion
import MissionScript.Proofs.Evaluation.Failure
import MissionScript.Proofs.Evaluation.Sparing
import MissionScript.Proofs.Save.Place
import MissionScript.Proofs.Formula.Detection
import MissionScript.Proofs.Operator.Naming
import MissionScript.Proofs.Mission.Checking
import MissionScript.Proofs.Mission.Flight
import MissionScript.Proofs.Formula.Location
import MissionScript.Proofs.Formula.Traversal
import MissionScript.Proofs.Mission.Ships
import MissionScript.Proofs.Mission.Warnings
import MissionScript.Proofs.Typing.Faults
import MissionScript.Proofs.Operator.Registration
