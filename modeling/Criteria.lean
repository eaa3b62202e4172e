import Criteria.Main
import Criteria.Query.Compare
import Criteria.Query.Session
import Criteria.Proofs.Command.Agreement
import Criteria.Proofs.Command.Contract
import Criteria.Proofs.Command.Filter
import Criteria.Proofs.Command.Trailing
import Criteria.Proofs.Json.Written
import Criteria.Proofs.Query.Comparable
import Criteria.Proofs.Query.Descent
import Criteria.Proofs.Query.Encoding
import Criteria.Proofs.Query.Extent
import Criteria.Proofs.Query.Joined
import Criteria.Proofs.Query.Layout
import Criteria.Proofs.Query.Literal
import Criteria.Proofs.Query.Prefix
import Criteria.Proofs.Query.RoundTrip
import Criteria.Proofs.Query.Session
import Criteria.Proofs.Query.Stops
import Criteria.Proofs.Query.Text
import Criteria.Proofs.Report.Distinct
import Criteria.Proofs.Text.Utf8
import Criteria.Proofs.Token.Cursor
import Criteria.Proofs.Token.Quotes
