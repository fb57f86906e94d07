import PathRouting.Captures.Cursor
import PathRouting.Proofs.Pattern.Literals
import PathRouting.Proofs.Pattern.Rendering
import PathRouting.Proofs.Pattern.RoundTrip
import PathRouting.Proofs.Router.History
import PathRouting.Proofs.Router.Requests
import PathRouting.Value.Reading
import PathRouting.Proofs.Pattern.Unresolved
import PathRouting.Proofs.Pattern.SameRequest
import PathRouting.Proofs.Text.Repetition
import PathRouting.Proofs.Value.EmailAddress
import PathRouting.Proofs.Captures.Slices
import PathRouting.Proofs.Captures.BothEnds
import PathRouting.Proofs.Pattern.Sources
import PathRouting.Proofs.Router.RequestLog
import PathRouting.Proofs.Router.RegistrationLog
import PathRouting.Proofs.Messages
import PathRouting.Proofs.Pattern.Optional
import PathRouting.Proofs.Router.NamedMethods
import PathRouting.Proofs.Captures.Integers
import PathRouting.Proofs.Path.Tiling
import PathRouting.Proofs.Pattern.Progress
