import DisksGraph.Runtime.Protocol
import DisksGraph.Runtime.Delivery
import DisksGraph.Engine.Events
import DisksGraph.Engine.Protect
import DisksGraph.Engine.Teardown
import DisksGraph.Engine.Extents
import DisksGraph.Engine.Agree
import DisksGraph.Editing.Session
import DisksGraph.Probe.Mounts
import DisksGraph.Probe.Conserve
import DisksGraph.Engine.Groups
import DisksGraph.Engine.Checked
import DisksGraph.Engine.Allocation
import DisksGraph.Engine.Containment
import DisksGraph.Engine.Locks
import DisksGraph.Engine.Provenance
import DisksGraph.Engine.Normal
import DisksGraph.Engine.Safe
import DisksGraph.Engine.Verdict
import DisksGraph.Runtime.Outputs
import DisksGraph.Runtime.Scope
import DisksGraph.Editing.Coverage
import DisksGraph.Runtime.Consent
import DisksGraph.Provider.LvmWrite
import DisksGraph.Engine.Capacity
import DisksGraph.Engine.Compare
import DisksGraph.Editing.History
import DisksGraph.Editing.Removal
import DisksGraph.Editing.Rebased
import DisksGraph.Facade.Mailbox
import DisksGraph.Facade.ReadOnly
import DisksGraph.Model.Exact
import DisksGraph.Engine.Ordered
import DisksGraph.Wire.Document
import DisksGraph.Transport.Slots
import DisksGraph.Transport.Calls
import DisksGraph.Transport.Handles
import DisksGraph.Transport.Closed
import DisksGraph.Transport.Terminates
import DisksGraph.Transport.Objects
