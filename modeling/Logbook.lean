import Logbook.Text.Utf8
import Logbook.Text.Quoted
import Logbook.Text.Lowercase
import Logbook.Checksum.Crc32
import Logbook.Checksum.SipHash
import Logbook.Record
import Logbook.Partition
import Logbook.Counter
import Logbook.Limits
import Logbook.Codec.Frame
import Logbook.Codec.Fixed
import Logbook.Json.Message
import Logbook.Codec.Basic
import Logbook.Codec.Options
import Logbook.Codec.Catalog
import Logbook.Toml.Value
import Logbook.Toml.Table
import Logbook.Toml.Quoted
import Logbook.Toml.Scalar
import Logbook.Toml.Document
import Logbook.Codec.Configuration
import Logbook.Lag
import Logbook.Store.Fault
import Logbook.Store.Group
import Logbook.Store.Appending
import Logbook.Store.Positioning
import Logbook.Store.Waiting
import Logbook.Broker.Tailers
import Logbook.Proofs.Lookup
import Logbook.Proofs.Success
import Logbook.Proofs.Bytes
import Logbook.Proofs.Text.Utf8
import Logbook.Proofs.Codec.Varint
import Logbook.Proofs.Codec.Binary
import Logbook.Proofs.Store.Run
import Logbook.Proofs.Store.Positions
import Logbook.Proofs.Store.Effects
import Logbook.Proofs.Store.Frames
import Logbook.Proofs.Store.Rotation
import Logbook.Proofs.Store.Looking
import Logbook.Proofs.Store.Reading
import Logbook.Proofs.Store.Consumption
import Logbook.Proofs.Store.Records
import Logbook.Proofs.Store.Groups
import Logbook.Proofs.Store.Ranges
import Logbook.Proofs.Store.Members
import Logbook.Proofs.Store.Generations
import Logbook.Proofs.Store.Tenure
import Logbook.Proofs.Store.Since
import Logbook.Proofs.Store.Reach
import Logbook.Proofs.Store.Advance
import Logbook.Proofs.Store.Delivery
import Logbook.Proofs.Store.Deletion
import Logbook.Proofs.Store.Notices
import Logbook.Proofs.Store.Listening
import Logbook.Proofs.Store.Incarnations
import Logbook.Proofs.Store.AppendOnly
import Logbook.Proofs.Store.Views
import Logbook.Proofs.Broker.Ownership
import Logbook.Proofs.Broker.Session
import Logbook.Proofs.Broker.Calls
import Logbook.Proofs.Broker.Answers
import Logbook.Proofs.Broker.Trace
import Logbook.Proofs.Broker.Groups
import Logbook.Proofs.Broker.Exclusive
import Logbook.Proofs.Broker.Commits
import Logbook.Proofs.Broker.Soundness
import Logbook.Proofs.Broker.SingleOwner
import Logbook.Proofs.Broker.CodecAgreement
import Logbook.Proofs.Broker.Tracking
import Logbook.Proofs.Broker.Shutdown
import Logbook.Proofs.Broker.Renumbering
import Logbook.Proofs.Broker.FailedCreation
import Logbook.Proofs.Broker.Sharing
import Logbook.Proofs.Broker.Memo
import Logbook.Proofs.Broker.Counting
import Logbook.Proofs.Broker.Steps
import Logbook.Proofs.Broker.Views
import Logbook.Proofs.Broker.Interference
import Logbook.Proofs.Codec.Frame
import Logbook.Proofs.Codec.Fixed
import Logbook.Proofs.Text.Number
import Logbook.Proofs.Json.Message
import Logbook.Proofs.Codec.Json
import Logbook.Proofs.Codec.Delimited
import Logbook.Proofs.Checksum.Crc32
import Logbook.Proofs.Codec.Corruption
import Logbook.Proofs.Codec.Catalog
import Logbook.Proofs.Toml.Quoted
import Logbook.Proofs.Toml.Document
import Logbook.Proofs.Codec.Configuration
import Logbook.Proofs.Store.Fairness
import Logbook.Proofs.Store.Breaking
import Logbook.Proofs.Store.Lacking
import Logbook.Proofs.Store.Ends
import Logbook.Proofs.Store.Places
import Logbook.Proofs.Store.Stopping
import Logbook.Proofs.Store.Replay
import Logbook.Proofs.Store.Tally
import Logbook.Proofs.Broker.Lagging
import Logbook.Proofs.Broker.Keys
import Logbook.Proofs.Broker.Usable
import Logbook.Proofs.Store.Balance
import Logbook.Proofs.Printed
import Logbook.Proofs.Codec.Apart
import Logbook.Proofs.Json.Natural
import Logbook.Proofs.Codec.KnownFlags
