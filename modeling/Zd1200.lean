import Zd1200.Lib.Checked
import Zd1200.Lib.Overlay
import Zd1200.Lib.Slice
import Zd1200.Patch.Pattern
import Zd1200.Lib.LittleEndian
import Zd1200.Patch.Rules
import Zd1200.Patch.Frame
import Zd1200.Patch.Again
import Zd1200.Lib.LinkTree
import Zd1200.Lib.WrittenPath
import Zd1200.Release.Extract
import Zd1200.Release.Contained
import Zd1200.Lib.Search
import Zd1200.Monitor.Database
import Zd1200.Monitor.AccessPoints
import Zd1200.Monitor.Clients
import Zd1200.Monitor.Telemetry
import Zd1200.Monitor.Tick
import Zd1200.Monitor.Collector
import Zd1200.Export.Codebook
import Zd1200.Export.Day
import Zd1200.Export.ParseDay
import Zd1200.Export.Layout
import Zd1200.Export.Readable
import Zd1200.Export.Content
import Zd1200.Daily.Publish
import Zd1200.Daily.Label
import Zd1200.Daily.Disjoint
import Zd1200.Export.Unchanged
import Zd1200.Monitor.Settled
import Zd1200.Daily.Rounds
import Zd1200.Daily.Complete
import Zd1200.Lib.Frames
import Zd1200.Snapshot.Bundle
import Zd1200.Snapshot.Publish
import Zd1200.Snapshot.Archive
import Zd1200.Snapshot.Retrievable
import Zd1200.Snapshot.Removed
import Zd1200.Host.Bridge
import Zd1200.Page.History
import Zd1200.Host.Spared
import Zd1200.Boot.Matched
import Zd1200.Monitor.Addresses
import Zd1200.Monitor.Attached
import Zd1200.Lib.BigEndian
import Zd1200.Monitor.Probes
import Zd1200.Monitor.Replies
import Zd1200.Monitor.AllOrNothing
import Zd1200.Lib.Md5
import Zd1200.Firmware.Bl7
import Zd1200.Firmware.Rebuild
import Zd1200.Monitor.CaseOnly
import Zd1200.Lib.Paired
import Zd1200.Monitor.Alike
import Zd1200.Export.CaseInsensitive
import Zd1200.Patch.Catalog
import Zd1200.Patch.Shape
import Zd1200.Patch.Container
import Zd1200.Lib.System
import Zd1200.Release.Tac
import Zd1200.Export.Regions
import Zd1200.Lib.Tally
import Zd1200.Page.Aggregate
import Zd1200.Page.Cells
import Zd1200.Snapshot.Framing
import Zd1200.Firmware.Repack
import Zd1200.Release.Controls
import Zd1200.Lib.Pages
import Zd1200.Monitor.EventLog
import Zd1200.Monitor.Numbered
import Zd1200.Monitor.Disabled
import Zd1200.Firmware.Unsigned
import Zd1200.Patch.Exit
import Zd1200.Release.Chunks
import Zd1200.Lib.Delimited
import Zd1200.Lib.Xml
import Zd1200.Monitor.Attributes
import Zd1200.Lib.Markup
import Zd1200.Monitor.Listing
import Zd1200.Monitor.Sections
import Zd1200.Monitor.Ownership
import Zd1200.Board.Identity
import Zd1200.Board.Records
import Zd1200.Export.Airtime
import Zd1200.Lib.Deletion
import Zd1200.Lib.XmlDocument
import Zd1200.Snapshot.Redaction
import Zd1200.Monitor.Migration
import Zd1200.Export.Latency
import Zd1200.Export.Upgraded
import Zd1200.Patch.Scan
import Zd1200.Patch.Grammar
import Zd1200.Board.Creation
import Zd1200.Monitor.Lookup
import Zd1200.Board.Disk
import Zd1200.Export.Radios
import Zd1200.Lib.Checksums
import Zd1200.Lib.Redirect
import Zd1200.Host.Signature
import Zd1200.Host.Initrd
import Zd1200.Export.Json
import Zd1200.Patch.Signature
import Zd1200.Host.Prepared
import Zd1200.Lib.Sed
import Zd1200.Monitor.Settings
import Zd1200.Monitor.Loop
import Zd1200.Monitor.Paced
import Zd1200.Page.Chart
import Zd1200.Lib.Backup
import Zd1200.Boot.Vendor
import Zd1200.Boot.Access
import Zd1200.Release.Manifest
import Zd1200.Release.Source
import Zd1200.Boot.Options
import Zd1200.Host.Revision
import Zd1200.Monitor.Configured
import Zd1200.Host.Health
