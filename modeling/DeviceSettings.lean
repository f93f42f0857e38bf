import DeviceSettings.Boot
import DeviceSettings.CommandLine.Run
import DeviceSettings.CommandLine.Snapshot
import DeviceSettings.Daemon.Client
import DeviceSettings.Doze
import DeviceSettings.KeyEvent
import DeviceSettings.Main
import DeviceSettings.Search
import DeviceSettings.Session
import DeviceSettings.Proofs.Durability
import DeviceSettings.Proofs.Home
import DeviceSettings.Proofs.Stores
import DeviceSettings.Proofs.Gating
import DeviceSettings.Proofs.Choices
import DeviceSettings.Proofs.Opening
import DeviceSettings.Proofs.Rest
import DeviceSettings.Proofs.Applying
import DeviceSettings.Proofs.Sittings
import DeviceSettings.Proofs.Following
import DeviceSettings.Proofs.Reconciling
import DeviceSettings.Proofs.Pocket
import DeviceSettings.Proofs.Delivery
import DeviceSettings.Proofs.Arming
import DeviceSettings.Proofs.Crowd
import DeviceSettings.Proofs.Doze
import DeviceSettings.Proofs.Booting
import DeviceSettings.Proofs.Failing
import DeviceSettings.Proofs.Unreadable
import DeviceSettings.Proofs.Repeating
import DeviceSettings.Proofs.Defaults
import DeviceSettings.Proofs.Footprint
import DeviceSettings.Proofs.Untouched
import DeviceSettings.Proofs.OnFile
import DeviceSettings.Proofs.Interrupted
import DeviceSettings.Proofs.Json.Compact
import DeviceSettings.Proofs.Text.Line
import DeviceSettings.Proofs.Framing
import DeviceSettings.Proofs.Document.Reading
import DeviceSettings.Proofs.Protocol
import DeviceSettings.Proofs.Yaml.Point
import DeviceSettings.Proofs.Yaml.Quoted
import DeviceSettings.Proofs.Yaml.Plain
import DeviceSettings.Proofs.Yaml.Literal
import DeviceSettings.Proofs.Yaml.Stream
import DeviceSettings.Proofs.Yaml.Scanning
import DeviceSettings.Proofs.Yaml.Tokens
import DeviceSettings.Proofs.Yaml.Events
import DeviceSettings.Proofs.Yaml.Reading
import DeviceSettings.Proofs.Profile.Document
import DeviceSettings.Proofs.Profile.Store
import DeviceSettings.Proofs.Preview
import DeviceSettings.Proofs.Shape
import DeviceSettings.Proofs.Readers
import DeviceSettings.Proofs.HomeKey
import DeviceSettings.Proofs.EntryPoint
import DeviceSettings.Proofs.Packages
import DeviceSettings.Proofs.Spelling
