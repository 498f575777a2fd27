import Deferred.Assertion
import Deferred.Counter
import Deferred.Deque
import Deferred.Effect.Basic
import Deferred.Effect.Chain
import Deferred.Effect.Passage
import Deferred.Effect.Resume
import Deferred.Interpreter
import Deferred.Json.Basic
import Deferred.Json.Printer
import Deferred.Json.Reader
import Deferred.Json.Token
import Deferred.Label
import Deferred.Pipeline
import Deferred.Registration.Account
import Deferred.Registration.Desk
import Deferred.Registration.Flow
import Deferred.Registration.Store
import Deferred.Runtime
import Deferred.Sampling
import Deferred.Scenario.Expr
import Deferred.Scenario.Flow
import Deferred.Scenario.Play
import Deferred.Scenario.ResultType
import Deferred.Scenario.Session
import Deferred.Scenario.Stage
import Deferred.Scenario.Value
import Deferred.Text.Decimal
import Deferred.Text.Printable
import Deferred.Text.Quoted
import Deferred.Text.Shown
import Deferred.Trace.Basic
import Deferred.Trace.Codec
import Deferred.Typed.Effect
import Deferred.Typed.Pipeline
import Deferred.Typed.Universe
import Deferred.Proofs.Flattening
import Deferred.Proofs.Nested
import Deferred.Proofs.Passage
import Deferred.Proofs.Run
import Deferred.Proofs.RunLaws
import Deferred.Proofs.Walk
import Deferred.Proofs.ChainLaws
import Deferred.Proofs.Rehearsal
import Deferred.Proofs.Blocks
import Deferred.Proofs.Bifunctor
import Deferred.Proofs.Finite
import Deferred.Proofs.Handling
import Deferred.Proofs.Numbered
import Deferred.Proofs.Invoked
import Deferred.Proofs.Typing
import Deferred.Proofs.Erasure
import Deferred.Proofs.Accounts
import Deferred.Proofs.Stages
import Deferred.Proofs.Visits
import Deferred.Proofs.Overlap
import Deferred.Proofs.Wording
import Deferred.Proofs.Refusal
import Deferred.Proofs.Softened
import Deferred.Proofs.Equality
import Deferred.Proofs.Validation
import Deferred.Proofs.Observation
import Deferred.Proofs.Tally
import Deferred.Proofs.Spies
import Deferred.Proofs.Counted
import Deferred.Proofs.Queued
import Deferred.Proofs.Stored
import Deferred.Proofs.Joined
