import MoenotesAssets.SharedWork.Sharing
import MoenotesAssets.TaskRunner.Completion
import MoenotesAssets.Service.Recovery
import MoenotesAssets.Service.Visibility
import MoenotesAssets.Storage.Ownership
import MoenotesAssets.Publication.Protocol
import MoenotesAssets.Catalog.Graph
import MoenotesAssets.Usm.Reordering
import MoenotesAssets.Catalog.Safety
import MoenotesAssets.Embedded.Extraction
import MoenotesAssets.Planning.Routing
import MoenotesAssets.ObjectTree.Coexistence
import MoenotesAssets.Upload.Agreement
import MoenotesAssets.Snapshots.Currency
import MoenotesAssets.Planning.Ordering
import MoenotesAssets.Planning.Conservation
import MoenotesAssets.Usm.Indexed
import MoenotesAssets.Usm.Unmasking
import MoenotesAssets.Service.Download
import MoenotesAssets.Usm.Arithmetic
import MoenotesAssets.Usm.Encoding
import MoenotesAssets.ObjectTree.Identities
import MoenotesAssets.Worker.Ivf
import MoenotesAssets.Worker.Adx
import MoenotesAssets.Worker.References
import MoenotesAssets.Planning.Classification
import MoenotesAssets.Service.Identity
import MoenotesAssets.Planning.Archiving
import MoenotesAssets.Worker.Outputs
import MoenotesAssets.Worker.Arrivals
import MoenotesAssets.Diagnostics.Capture
import MoenotesAssets.Catalog.Transparency
import MoenotesAssets.Service.Attendance
import MoenotesAssets.Service.Refinement
import MoenotesAssets.Foundation.Draining
import MoenotesAssets.Foundation.Paging
import MoenotesAssets.Foundation.Percent
import MoenotesAssets.Foundation.Crc
import MoenotesAssets.Service.Registration
import MoenotesAssets.Service.Scheduling
import MoenotesAssets.Service.Liveness
import MoenotesAssets.Service.Listing
import MoenotesAssets.Worker.SplitAcb
import MoenotesAssets.Worker.BundleCrc
import MoenotesAssets.Publication.Files
import MoenotesAssets.Publication.Downloads
import MoenotesAssets.Upload.Signing
import MoenotesAssets.Upload.Handoff
import MoenotesAssets.Upload.Effort
import MoenotesAssets.Worker.Tracks
import MoenotesAssets.Worker.Conversion
import MoenotesAssets.Worker.Playback
import MoenotesAssets.Publication.Provenance
import MoenotesAssets.Worker.Served
import MoenotesAssets.Upload.Success
import MoenotesAssets.Upload.Delivery
