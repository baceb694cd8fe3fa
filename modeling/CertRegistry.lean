import CertRegistry.Files
import CertRegistry.Log.Filter
import CertRegistry.Main
import CertRegistry.Node.Memory
import CertRegistry.Proofs.Bases
import CertRegistry.Proofs.Command.Overrides
import CertRegistry.Proofs.Command.Printed
import CertRegistry.Proofs.Command.Statuses
import CertRegistry.Proofs.Command.Waits
import CertRegistry.Proofs.Endpoint
import CertRegistry.Proofs.Keys
import CertRegistry.Proofs.Ledger.Batching
import CertRegistry.Proofs.Node.Reads
import CertRegistry.Proofs.Node.Statuses
import CertRegistry.Proofs.Registry.Actions
import CertRegistry.Proofs.Registry.Counters
import CertRegistry.Proofs.Registry.Finding
import CertRegistry.Proofs.Registry.Interleaving
import CertRegistry.Proofs.Registry.Reports
import CertRegistry.Proofs.Registry.Rhythm
import CertRegistry.Proofs.Rest.Delays
import CertRegistry.Proofs.Rest.Links
import CertRegistry.Proofs.Signing
import CertRegistry.Proofs.Verification
import CertRegistry.Proofs.Wire.Cumulation
import CertRegistry.Proofs.Json.Numbers
import CertRegistry.Proofs.Json.Values
import CertRegistry.Proofs.Json.Acceptance
import CertRegistry.Proofs.Json.Recognition
import CertRegistry.Proofs.Node.Blocks
import CertRegistry.Proofs.Rest.Bodies
import CertRegistry.Proofs.Rest.Responses
import CertRegistry.Proofs.Toml.Settings
import CertRegistry.Proofs.Toml.Strings
import CertRegistry.Proofs.Overlay
