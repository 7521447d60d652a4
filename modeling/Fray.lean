import Fray.Combatant
import Fray.Damage.Indicator
import Fray.Decimal.Shortest
import Fray.Registry
import Fray.Interaction.Relationship
import Fray.Timetable
import Fray.Toml.Value
import Fray.Toml.Document
import Fray.Config
import Fray.Host
import Fray.Interaction.Gate
import Fray.Toml.Quote
import Fray.Damage.Attack
import Fray.Damage.Window
import Fray.Skill.Skill
import Fray.Journal
import Fray.Log.Filter
import Fray.Engine.Event
import Fray.Engine.Listeners
import Fray.Engine.Resolve
import Fray.Engine.Cast
import Fray.Damage.Step
import Fray.Stage.Basic
import Fray.Stage.Play
import Fray.Arena.Basic
import Fray.Arena.Spell
import Fray.Random.Stream
import Fray.Settings
import Fray.Demo.Fight
import Fray.Demo.Performance
import Fray.Arena.Spectacle
import Fray.Main
import Fray.Log.Pattern
import Fray.Proofs.Association
import Fray.Proofs.Gatekeeping
import Fray.Proofs.Action
import Fray.Proofs.Listening
import Fray.Proofs.Windows
import Fray.Proofs.Resolution
import Fray.Proofs.Outcome
import Fray.Proofs.Permission
import Fray.Proofs.Ledger
import Fray.Proofs.Conservation
import Fray.Proofs.Casting
import Fray.Proofs.Spacing
import Fray.Proofs.Timekeeping
import Fray.Proofs.CastingSet
import Fray.Proofs.Reentry
import Fray.Proofs.Collections
import Fray.Proofs.Handles
import Fray.Proofs.RuleBook
import Fray.Proofs.Lifecycle
import Fray.Proofs.Release
import Fray.Proofs.Courses
import Fray.Proofs.Crews
import Fray.Proofs.TakingEffect
import Fray.Proofs.TwoPass
import Fray.Proofs.Exact
import Fray.Proofs.Blend
import Fray.Proofs.Gathering
import Fray.Proofs.AnyOrder
import Fray.Proofs.OpenWindows
import Fray.Proofs.Felled
import Fray.Proofs.Restriction
import Fray.Proofs.Notices
import Fray.Proofs.Afterlife
import Fray.Proofs.Vigil
import Fray.Proofs.Rounds
import Fray.Proofs.Rota
import Fray.Proofs.Aura
import Fray.Proofs.Editing
import Fray.Proofs.Merging
import Fray.Proofs.WholeEdits
import Fray.Proofs.Totals
import Fray.Proofs.Forgetting
import Fray.Proofs.Precedence
import Fray.Proofs.Delivery
import Fray.Proofs.WrittenOnce
import Fray.Proofs.Breakdown
import Fray.Proofs.Showing
import Fray.Proofs.Spelling
import Fray.Proofs.Machine
import Fray.Proofs.Hunt
import Fray.Proofs.Saving
