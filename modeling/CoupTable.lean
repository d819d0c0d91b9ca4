import CoupTable.Text.Blank
import CoupTable.Text.Quoted
import CoupTable.Text.Utf8
import CoupTable.Variant
import CoupTable.Deck
import CoupTable.Player
import CoupTable.Move
import CoupTable.Refusal
import CoupTable.Venue
import CoupTable.Stack
import CoupTable.Game.Turns
import CoupTable.Game.Reveals
import CoupTable.RandomPlay
import CoupTable.Transcript.Replay
import CoupTable.Transcript.Table
import CoupTable.Move.Json
import CoupTable.Settings.Json
import CoupTable.Main
import CoupTable.Proofs.Hands
import CoupTable.Proofs.Shuffle
import CoupTable.Proofs.Basics
import CoupTable.Proofs.Statuses
import CoupTable.Proofs.Steps
import CoupTable.Proofs.Shape
import CoupTable.Proofs.Deal
import CoupTable.Proofs.Pool
import CoupTable.Proofs.Sound
import CoupTable.Proofs.ShapeSteps
import CoupTable.Proofs.PoolSteps
import CoupTable.Proofs.SoundSteps
import CoupTable.Proofs.Continuing
import CoupTable.Proofs.Listing
import CoupTable.Proofs.TurnPresses
import CoupTable.Proofs.ClaimPresses
import CoupTable.Proofs.CardPresses
import CoupTable.Proofs.Idling
import CoupTable.Proofs.Running
import CoupTable.Proofs.Reaching
import CoupTable.Proofs.Faultless
import CoupTable.Proofs.Layouts
import CoupTable.Proofs.Conservation
import CoupTable.Proofs.Aftermath
import CoupTable.Proofs.Owing
import CoupTable.Proofs.Closing
import CoupTable.Proofs.Verdicts
import CoupTable.Proofs.Arbitration
import CoupTable.Proofs.Outcomes
import CoupTable.Proofs.Calls
import CoupTable.Proofs.Money
import CoupTable.Proofs.Claiming
import CoupTable.Proofs.Tolls
import CoupTable.Proofs.Losses
import CoupTable.Proofs.Endings
import CoupTable.Proofs.Elsewhere
import CoupTable.Proofs.Clocks
import CoupTable.Proofs.Acceptances
import CoupTable.Proofs.Alarms
import CoupTable.Proofs.Quorum
import CoupTable.Proofs.Events
import CoupTable.Proofs.Deadlines
import CoupTable.Proofs.Opponents
import CoupTable.Proofs.Choices
import CoupTable.Proofs.Rules
import CoupTable.Proofs.Rotation
import CoupTable.Proofs.Resting
import CoupTable.Proofs.Graveyards
import CoupTable.Proofs.Wealth
import CoupTable.Proofs.Veil
import CoupTable.Proofs.Discretion
import CoupTable.Proofs.OpenFrames
import CoupTable.Proofs.Exposure
import CoupTable.Proofs.Secrecy
import CoupTable.Proofs.Report
import CoupTable.Proofs.Patience
import CoupTable.Proofs.Tables
import CoupTable.Proofs.Transcripts
import CoupTable.Proofs.Backlog
import CoupTable.Proofs.Lines
import CoupTable.Proofs.Replaying
import CoupTable.Proofs.Sides
import CoupTable.Proofs.Choosing
import CoupTable.Proofs.Prompts
import CoupTable.Proofs.Openly
import CoupTable.Proofs.OwnHands
import CoupTable.Proofs.Objections
import CoupTable.Proofs.Targets
import CoupTable.Proofs.Keeping
import CoupTable.Proofs.Interrogating
import CoupTable.Proofs.Fates
import CoupTable.Proofs.Passing
import CoupTable.Proofs.Overrides
import CoupTable.Proofs.DataStrings
import CoupTable.Proofs.Simulating
import CoupTable.Proofs.LossStacks
