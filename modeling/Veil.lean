import Veil.Lib.Machine
import Veil.Lib.Duplex
import Veil.Lib.Code
import Veil.Mux.Conservation
import Veil.Mux.Order
import Veil.Mux.Grammar
import Veil.Mux.Wakeup
import Veil.Mux.Overflow
import Veil.Mux.Completion
import Veil.Mux.Isolation
import Veil.Lib.Rotation
import Veil.Mux.Fairness
import Veil.Lib.Source
import Veil.Wire.Codec
import Veil.Wire.Auth
import Veil.Rust.State
import Veil.Rust.Session
import Veil.Rust.Track
import Veil.Rust.Refine
import Veil.Rust.Conservation
import Veil.Rust.Admission
import Veil.Rust.Client
import Veil.Rust.Roles
import Veil.Rust.Open
import Veil.Lib.Json
import Veil.Lib.Program
import Veil.Proxy.World
import Veil.Proxy.Faults
import Veil.Proxy.Restore
import Veil.Proxy.Journal
import Veil.Proxy.Recovery
import Veil.Lib.Address
import Veil.Proxy.Desktop
import Veil.Control.Config
import Veil.Lib.Sha256
import Veil.Control.Encode
import Veil.Control.Store
import Veil.Control.Manager
import Veil.Control.Profile
import Veil.Control.Revision
import Veil.Control.Validation
import Veil.Control.Catalog
import Veil.Control.Sound
import Veil.Control.Staged
import Veil.Control.Changes
import Veil.Control.Proposal
import Veil.Control.References
import Veil.Control.Endpoints
import Veil.Control.Stored
import Veil.Control.Running
import Veil.Lib.AddressRust
import Veil.Lib.AddressText
import Veil.Lib.Endpoint
import Veil.Wire.Address
import Veil.Wire.Destination
import Veil.Wire.Socks
import Veil.Lib.Rotation
import Veil.Mux.Fairness
import Veil.Rust.Atomic
import Veil.Rust.Sending
import Veil.Rust.Notify
import Veil.Tls.Padding
import Veil.Mux.Padding
import Veil.Tls.Batch
import Veil.Service.Inlets
import Veil.Lib.Reader
import Veil.Core.Fallback
import Veil.Control.Migration
import Veil.Control.Frame
import Veil.Lib.Stopping
import Veil.Control.Relay
import Veil.Control.Binding
import Veil.Control.Shown
import Veil.Control.Probe
import Veil.Lib.Backoff
import Veil.Core.Pool
import Veil.Core.Cooldown
import Veil.Lib.Buffer
import Veil.Tls.ReadBuffer
import Veil.Lib.Holding
import Veil.Lib.Row
import Veil.Mux.Life
import Veil.Mux.Chunks
import Veil.Mux.Lasting
import Veil.Mux.Queues
import Veil.Mux.Owned
import Veil.Mux.Handing
import Veil.Mux.Slices
import Veil.Mux.Returning
import Veil.Mux.Ownership
import Veil.Mux.Returned
import Veil.Core.Lanes
import Veil.Lib.Turnstile
import Veil.Core.Turns
import Veil.Mux.Legal
import Veil.Mux.Wording
