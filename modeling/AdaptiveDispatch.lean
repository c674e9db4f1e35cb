import AdaptiveDispatch.Coercion.Conversion
import AdaptiveDispatch.Coercion.Invoker
import AdaptiveDispatch.Coercion.Site
import AdaptiveDispatch.Coercion.Width
import AdaptiveDispatch.Completion
import AdaptiveDispatch.Dispatch.Cache
import AdaptiveDispatch.Dispatch.Registry
import AdaptiveDispatch.Dispatch.Shape
import AdaptiveDispatch.Dispatch.Table
import AdaptiveDispatch.Double.Basic
import AdaptiveDispatch.Double.Display
import AdaptiveDispatch.Double.Shortest
import AdaptiveDispatch.Engine
import AdaptiveDispatch.Fault
import AdaptiveDispatch.Loop
import AdaptiveDispatch.Program.Run
import AdaptiveDispatch.Program.Script
import AdaptiveDispatch.Program.Syntax
import AdaptiveDispatch.Sequence.Access
import AdaptiveDispatch.Sequence.Basic
import AdaptiveDispatch.Sequence.Site
import AdaptiveDispatch.Sequence.Store
import AdaptiveDispatch.Session.Action
import AdaptiveDispatch.Session.Basic
import AdaptiveDispatch.Settings
import AdaptiveDispatch.Text.Blank
import AdaptiveDispatch.Value.Basic
import AdaptiveDispatch.Value.Constant
import AdaptiveDispatch.Value.Identical
import AdaptiveDispatch.Value.Literal
import AdaptiveDispatch.Value.Text
import AdaptiveDispatch.Proofs.Dispatch.Select
import AdaptiveDispatch.Proofs.Dispatch.Run
import AdaptiveDispatch.Proofs.Dispatch.Order
import AdaptiveDispatch.Proofs.Dispatch.Verdict
import AdaptiveDispatch.Proofs.Dispatch.Routes
import AdaptiveDispatch.Proofs.Dispatch.Profile
import AdaptiveDispatch.Proofs.Dispatch.Counts
import AdaptiveDispatch.Proofs.Dispatch.Limit
import AdaptiveDispatch.Proofs.Coercion.Judgement
import AdaptiveDispatch.Proofs.Coercion.Site
import AdaptiveDispatch.Proofs.Coercion.Transparency
import AdaptiveDispatch.Proofs.Coercion.Integers
import AdaptiveDispatch.Proofs.Coercion.Outcome
import AdaptiveDispatch.Proofs.Coercion.Literals
import AdaptiveDispatch.Proofs.Coercion.Narrowing
import AdaptiveDispatch.Proofs.Coercion.History
import AdaptiveDispatch.Proofs.Coercion.Steps
import AdaptiveDispatch.Proofs.Coercion.Reentrancy
import AdaptiveDispatch.Proofs.Engine.Uses
import AdaptiveDispatch.Proofs.Engine.Sites
import AdaptiveDispatch.Proofs.Engine.Moves
import AdaptiveDispatch.Proofs.Engine.Clients
import AdaptiveDispatch.Proofs.Engine.Independence
import AdaptiveDispatch.Proofs.Engine.Bookkeeping
import AdaptiveDispatch.Proofs.Sequence.Access
import AdaptiveDispatch.Proofs.Sequence.Contents
import AdaptiveDispatch.Proofs.Sequence.Refinement
import AdaptiveDispatch.Proofs.Sequence.Words
import AdaptiveDispatch.Proofs.Sequence.Safety
import AdaptiveDispatch.Proofs.Loop.Runs
import AdaptiveDispatch.Proofs.Loop.Nesting
import AdaptiveDispatch.Proofs.Program.Moves
import AdaptiveDispatch.Proofs.Session.Moves
import AdaptiveDispatch.Proofs.Engine.Limits
import AdaptiveDispatch.Proofs.Dispatch.Lookup
import AdaptiveDispatch.Proofs.Sequence.Agreement
import AdaptiveDispatch.Proofs.Sequence.Sharing
import AdaptiveDispatch.Proofs.Sequence.Chains
import AdaptiveDispatch.Proofs.Sequence.RoundTrip
import AdaptiveDispatch.Proofs.Sequence.Refusals
import AdaptiveDispatch.Proofs.Loop.Calls
import AdaptiveDispatch.Proofs.Loop.Visiting
import AdaptiveDispatch.Proofs.Loop.Concatenation
import AdaptiveDispatch.Proofs.Loop.Scripts
import AdaptiveDispatch.Proofs.Loop.Coercing
import AdaptiveDispatch.Proofs.Settings.Overlay
import AdaptiveDispatch.Proofs.Value.Paths
