import MicrosandboxRb.Backend.Model
import MicrosandboxRb.Runtime.ForkGuarded
import MicrosandboxRb.Backend.Spec
import MicrosandboxRb.Backend.Invariant
import MicrosandboxRb.Backend.Leak
import MicrosandboxRb.Backend.Failure
import MicrosandboxRb.Backend.Scopes
import MicrosandboxRb.Runtime.Cell
import MicrosandboxRb.Runtime.Nogvl
import MicrosandboxRb.Lib.Serialized
import MicrosandboxRb.Runtime.Calls
import MicrosandboxRb.Stream.Model
import MicrosandboxRb.Stream.Served
import MicrosandboxRb.Stream.Each
import MicrosandboxRb.Lib.FirstMatch
import MicrosandboxRb.Lib.RubyValue
import MicrosandboxRb.Lib.RustNet
import MicrosandboxRb.Conv
import MicrosandboxRb.Lib.ExceptList
import MicrosandboxRb.Network.Native
import MicrosandboxRb.Network.Policy
import MicrosandboxRb.Network.Layers
import MicrosandboxRb.Network.Meaning
import MicrosandboxRb.Network.Coerce
import MicrosandboxRb.Network.Widening
import MicrosandboxRb.Lib.FileSystem
import MicrosandboxRb.Vendor.Model
import MicrosandboxRb.Lib.FileTree
import MicrosandboxRb.Vendor.Spec
import MicrosandboxRb.Vendor.Extract
import MicrosandboxRb.Vendor.Vendored
import MicrosandboxRb.Vendor.AllOrNothing
import MicrosandboxRb.Vendor.Verified
import MicrosandboxRb.Session.Model
import MicrosandboxRb.Session.Spec
import MicrosandboxRb.Session.Consumed
import MicrosandboxRb.Session.Close
import MicrosandboxRb.Runtime.CheckedProcess
import MicrosandboxRb.Sandbox.Memo
import MicrosandboxRb.Lib.Monitor
import MicrosandboxRb.Runtime.Provision
import MicrosandboxRb.Runtime.Provisioned
import MicrosandboxRb.Sandbox.Acquire
import MicrosandboxRb.Lib.RustPath
import MicrosandboxRb.Create.HostPath
import MicrosandboxRb.Lib.RubyNumeric
import MicrosandboxRb.Create.Mount
import MicrosandboxRb.Create.RootDisk
import MicrosandboxRb.Create.Volumes
import MicrosandboxRb.Network.Interchange
import MicrosandboxRb.Modify.Secrets
import MicrosandboxRb.Proxy.RoundTrip
import MicrosandboxRb.Runtime.Bundled
import MicrosandboxRb.Volume.Fs
import MicrosandboxRb.Sandbox.Logs
import MicrosandboxRb.Create.Anchoring
import MicrosandboxRb.Create.Arrival
import MicrosandboxRb.Modify.Patch
import MicrosandboxRb.Sandbox.Exec
import MicrosandboxRb.Create.Secrecy
