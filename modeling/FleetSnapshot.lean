import FleetSnapshot.Audit.Schema.Definition
import FleetSnapshot.Bucket.Service
import FleetSnapshot.Main
import FleetSnapshot.Proofs.Plan
import FleetSnapshot.Proofs.Operation
import FleetSnapshot.Proofs.Claim
import FleetSnapshot.Proofs.Blame
import FleetSnapshot.Proofs.Trace
import FleetSnapshot.Proofs.Downtime
import FleetSnapshot.Proofs.Restart
import FleetSnapshot.Proofs.Listing
import FleetSnapshot.Proofs.Ready
import FleetSnapshot.Proofs.Cycle
import FleetSnapshot.Proofs.Directory
import FleetSnapshot.Proofs.History
import FleetSnapshot.Proofs.Collision
import FleetSnapshot.Proofs.Rehearsal
import FleetSnapshot.Proofs.Effect
import FleetSnapshot.Proofs.Backed
import FleetSnapshot.Proofs.Orphan
import FleetSnapshot.Proofs.Truthful
import FleetSnapshot.Proofs.Verdict
import FleetSnapshot.Proofs.Admission
import FleetSnapshot.Proofs.Agreement
import FleetSnapshot.Proofs.Lifespan
import FleetSnapshot.Proofs.Schedule
import FleetSnapshot.Proofs.Marker
import FleetSnapshot.Proofs.Destination
import FleetSnapshot.Proofs.Token
import FleetSnapshot.Proofs.Retry
import FleetSnapshot.Proofs.Staged
import FleetSnapshot.Proofs.Emptied
import FleetSnapshot.Proofs.Protection
import FleetSnapshot.Proofs.Heights
import FleetSnapshot.Proofs.Pages
import FleetSnapshot.Proofs.Template
import FleetSnapshot.Proofs.Upgrade
import FleetSnapshot.Proofs.Quoting
import FleetSnapshot.Proofs.ChainIds
import FleetSnapshot.Proofs.Access
import FleetSnapshot.Proofs.Lookup
import FleetSnapshot.Proofs.Numerals
import FleetSnapshot.Proofs.Isolation
import FleetSnapshot.Proofs.Conversation
import FleetSnapshot.Proofs.Pattern
import FleetSnapshot.Proofs.Loading
import FleetSnapshot.Proofs.Grammar
