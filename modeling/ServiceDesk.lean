import ServiceDesk.Text.Quoted
import ServiceDesk.Text.Lowercase
import ServiceDesk.Text.Blank
import ServiceDesk.Text.Utf8
import ServiceDesk.Uuid
import ServiceDesk.Time.Rfc3339
import ServiceDesk.Json.Tree
import ServiceDesk.Json.Record
import ServiceDesk.Json.Printer
import ServiceDesk.Role
import ServiceDesk.Listing.Query
import ServiceDesk.Organization
import ServiceDesk.Category
import ServiceDesk.Hierarchy.Tree
import ServiceDesk.Hierarchy.Path
import ServiceDesk.Hierarchy.Lineage
import ServiceDesk.Store.Disk
import ServiceDesk.Service.Categories
import ServiceDesk.Web.Api
import ServiceDesk.Main
import ServiceDesk.Proofs.Text.Numerals
import ServiceDesk.Proofs.Time.Calendar
import ServiceDesk.Proofs.Time.Timestamps
import ServiceDesk.Proofs.Hierarchy.Checks
import ServiceDesk.Proofs.Hierarchy.Growth
import ServiceDesk.Proofs.Hierarchy.Assembly
import ServiceDesk.Proofs.Store.Rows
import ServiceDesk.Proofs.Store.Contents
import ServiceDesk.Proofs.Service.Protocol
import ServiceDesk.Proofs.Service.Writes
import ServiceDesk.Proofs.Service.Serial
import ServiceDesk.Proofs.Service.Schedules
import ServiceDesk.Proofs.Service.Deletions
import ServiceDesk.Proofs.Service.Moves
import ServiceDesk.Proofs.Service.Replays
import ServiceDesk.Proofs.Service.Serializability
import ServiceDesk.Proofs.Store.References
import ServiceDesk.Proofs.Service.Tenants
import ServiceDesk.Proofs.Service.Thinning
import ServiceDesk.Proofs.Hierarchy.Limits
import ServiceDesk.Proofs.Hierarchy.Partition
import ServiceDesk.Proofs.Store.Uniqueness
import ServiceDesk.Proofs.Service.Admission
import ServiceDesk.Proofs.Hierarchy.Views
import ServiceDesk.Proofs.Store.Ledger
import ServiceDesk.Proofs.Service.Readback
import ServiceDesk.Proofs.Text.ByteOrder
import ServiceDesk.Proofs.Store.Listings
import ServiceDesk.Proofs.Service.Blame
import ServiceDesk.Proofs.Service.Effects
import ServiceDesk.Proofs.Service.Inquiries
import ServiceDesk.Proofs.Service.Footprints
import ServiceDesk.Proofs.Service.Isolation
import ServiceDesk.Proofs.Web.Statuses
import ServiceDesk.Proofs.Hierarchy.Exactness
import ServiceDesk.Proofs.Text.NormalForms
import ServiceDesk.Proofs.Service.Invariants
import ServiceDesk.Proofs.Service.Validity
import ServiceDesk.Proofs.Service.Joining
import ServiceDesk.Proofs.Service.Agreement
import ServiceDesk.Proofs.Hierarchy.Verdicts
import ServiceDesk.Proofs.Text.Lowering
import ServiceDesk.Proofs.Service.Domains
import ServiceDesk.Proofs.Service.Guards
import ServiceDesk.Proofs.Hierarchy.Relocation
import ServiceDesk.Proofs.Hierarchy.Replanting
import ServiceDesk.Proofs.Hierarchy.Walks
import ServiceDesk.Proofs.Service.Writebacks
import ServiceDesk.Proofs.Service.Relocations
import ServiceDesk.Proofs.Text.Trimming
import ServiceDesk.Proofs.Service.Searches
import ServiceDesk.Proofs.Listing.Shapes
import ServiceDesk.Proofs.Time.TextOrder
import ServiceDesk.Proofs.Store.Births
import ServiceDesk.Proofs.Service.Chronology
import ServiceDesk.Proofs.Hierarchy.Climbs
import ServiceDesk.Proofs.Hierarchy.Heights
import ServiceDesk.Proofs.Hierarchy.Traversals
