import DeviceTrace.Client.Description
import DeviceTrace.Client.Faults
import DeviceTrace.Proofs.Session.Delivery
import DeviceTrace.Proofs.Session.Moves
import DeviceTrace.Proofs.Stream.Segments
import DeviceTrace.Record.Description
import DeviceTrace.Record.Summary
import DeviceTrace.Region.Description
import DeviceTrace.Session.System
import DeviceTrace.Stream.Cursor
import DeviceTrace.Stream.HostLinks
import DeviceTrace.Stream.Router
import DeviceTrace.Proofs.Session.Balance
import DeviceTrace.Proofs.Session.Hosting
import DeviceTrace.Proofs.Session.Pausing
import DeviceTrace.Proofs.Monitor.Switching
import DeviceTrace.Proofs.Session.Stopping
import DeviceTrace.Proofs.Monitor.Refusals
import DeviceTrace.Proofs.Session.Recording
import DeviceTrace.Proofs.Session.Resuming
import DeviceTrace.Proofs.Session.Reregistering
import DeviceTrace.Proofs.Host.Mirroring
import DeviceTrace.Proofs.Host.Nesting
import DeviceTrace.Proofs.Host.RefusedPushes
import DeviceTrace.Proofs.Record.RoundTrip
import DeviceTrace.Proofs.Stream.Cursors
import DeviceTrace.Proofs.Region.Innermost
import DeviceTrace.Proofs.Region.Stays
import DeviceTrace.Proofs.Session.Control
import DeviceTrace.Proofs.Session.Reporting
import DeviceTrace.Proofs.Region.Numbering
import DeviceTrace.Proofs.Region.Teams
import DeviceTrace.Proofs.Stream.Marks
import DeviceTrace.Proofs.Stream.Cuts
import DeviceTrace.Proofs.Stream.Draining
import DeviceTrace.Proofs.Stream.Attributing
import DeviceTrace.Proofs.Monitor.Steady
import DeviceTrace.Proofs.Monitor.Categories
import DeviceTrace.Proofs.Region.Handles
import DeviceTrace.Proofs.Stream.Filling
import DeviceTrace.Proofs.Host.Issuing
import DeviceTrace.Proofs.Host.Sharing
import DeviceTrace.Proofs.Record.Writing
import DeviceTrace.Proofs.Stream.MachineWords
