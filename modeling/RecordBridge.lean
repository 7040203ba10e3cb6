import RecordBridge.CommandLine.Run
import RecordBridge.Main
import RecordBridge.Proofs.Codec.Aborted
import RecordBridge.Proofs.Codec.Composed
import RecordBridge.Proofs.Codec.Decoded
import RecordBridge.Proofs.Codec.Reach
import RecordBridge.Proofs.Codec.Relay
import RecordBridge.Proofs.Codec.Sharing
import RecordBridge.Proofs.Codec.Skipped
import RecordBridge.Proofs.Codec.Unlimited
import RecordBridge.Proofs.Config
import RecordBridge.Proofs.Message.Again
import RecordBridge.Proofs.Message.Append
import RecordBridge.Proofs.Message.Edits
import RecordBridge.Proofs.Message.Padded
import RecordBridge.Proofs.Message.Truncation
import RecordBridge.Proofs.Record.Chains
import RecordBridge.Proofs.Record.Described
import RecordBridge.Proofs.Record.Json
import RecordBridge.Proofs.Record.Runs
import RecordBridge.Proofs.Record.Zero
import RecordBridge.Proofs.Registry.Acceptance
import RecordBridge.Proofs.Registry.Fingerprint
import RecordBridge.Proofs.Registry.Growth
import RecordBridge.Proofs.Registry.Order
import RecordBridge.Proofs.Schema.Acceptance
import RecordBridge.Proofs.Registry.Conversion
import RecordBridge.Proofs.Text.Kept
import RecordBridge.Proofs.Message.Written
import RecordBridge.Proofs.Codec.Frames
