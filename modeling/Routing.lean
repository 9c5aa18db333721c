import Routing.Text.Blank
import Routing.Text.Pieces
import Routing.Text.Quoted
import Routing.Text.Uppercase
import Routing.Url
import Routing.Path
import Routing.Path.Segment
import Routing.Path.Parameters
import Routing.Method
import Routing.Route
import Routing.Match
import Routing.Tree.Basic
import Routing.Tree.Insert
import Routing.Tree.Listing
import Routing.Tree.Forest
import Routing.Descent
import Routing.Plan.Basic
import Routing.Plan.Compile
import Routing.Plan.Run
import Routing.Event
import Routing.Router
import Routing.Session
import Routing.CommandLine
import Routing.Main
import Routing.Proofs.Tree.Content
import Routing.Proofs.Forest.Content
import Routing.Proofs.Descent.Visits
import Routing.Proofs.Descent.Matches
import Routing.Proofs.Plan.Agreement
import Routing.Proofs.Descent.Narrowing
import Routing.Proofs.Descent.Greedy
import Routing.Proofs.Plan.Detached
import Routing.Proofs.Descent.Trail
import Routing.Proofs.Session.Extension
import Routing.Proofs.Descent.Priority
import Routing.Proofs.Session.Order
import Routing.Proofs.Descent.OwnPath
import Routing.Proofs.Descent.Correspondence
import Routing.Proofs.Session.Isolation
import Routing.Proofs.Session.Renaming
import Routing.Proofs.Session.History
import Routing.Proofs.Url.Reading
import Routing.Proofs.Plan.Calls
import Routing.Proofs.CommandLine.Definitions
import Routing.Proofs.CommandLine.Flags
import Routing.Proofs.Text.Bytes
import Routing.Proofs.Tree.Preorder
import Routing.Proofs.Forest.Listing
import Routing.Proofs.Path.Canonical
import Routing.Proofs.Path.Table
import Routing.Proofs.Forest.Size
import Routing.Proofs.Plan.Counting
import Routing.Proofs.CommandLine.Blanks
import Routing.Proofs.CommandLine.Faults
import Routing.Proofs.Session.OnDemand
import Routing.Proofs.Session.Slashes
import Routing.Proofs.CommandLine.Report
import Routing.Proofs.Forest.Numbers
import Routing.Proofs.Method.Recognition
import Routing.Proofs.Session.Sizes
