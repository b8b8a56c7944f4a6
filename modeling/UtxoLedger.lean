import UtxoLedger.Address.Basic
import UtxoLedger.Address.Binary
import UtxoLedger.Address.Byron
import UtxoLedger.Address.Error
import UtxoLedger.Address.InPlace
import UtxoLedger.Address.Text
import UtxoLedger.AssetName
import UtxoLedger.Base58
import UtxoLedger.Bech32
import UtxoLedger.Build.Amounts
import UtxoLedger.Build.Balance
import UtxoLedger.Build.Draft
import UtxoLedger.Build.Funding
import UtxoLedger.Build.Options
import UtxoLedger.Build.Size
import UtxoLedger.Build.Trace
import UtxoLedger.Bytes
import UtxoLedger.Bytes.Sized
import UtxoLedger.Cbor.ByKind
import UtxoLedger.Cbor.Codec
import UtxoLedger.Cbor.Decoder
import UtxoLedger.Cbor.Encoder
import UtxoLedger.Cbor.Error
import UtxoLedger.Cbor.Item
import UtxoLedger.Cbor.KeyMask
import UtxoLedger.Cbor.Kind
import UtxoLedger.Cbor.Layout
import UtxoLedger.Cbor.Positional
import UtxoLedger.Cbor.Record
import UtxoLedger.Cbor.Union
import UtxoLedger.Cbor.Wrapper
import UtxoLedger.Certificate
import UtxoLedger.Chain.Context
import UtxoLedger.Chain.InPlace
import UtxoLedger.Chain.Memory
import UtxoLedger.Credential
import UtxoLedger.Datum
import UtxoLedger.Digest.Blake2b
import UtxoLedger.Digest.Sha512
import UtxoLedger.Ed25519.Curve
import UtxoLedger.Ed25519.Key
import UtxoLedger.ExecutionUnits
import UtxoLedger.Failure
import UtxoLedger.Fee
import UtxoLedger.Governance.Action
import UtxoLedger.Governance.Voting
import UtxoLedger.Hash
import UtxoLedger.Hex
import UtxoLedger.Json.Reader
import UtxoLedger.Json.Value
import UtxoLedger.Metadata.Auxiliary
import UtxoLedger.Metadata.Basic
import UtxoLedger.Metadata.Document
import UtxoLedger.MultiAsset
import UtxoLedger.Network
import UtxoLedger.Number.Binary64
import UtxoLedger.Number.Digits
import UtxoLedger.Number.Shortest
import UtxoLedger.OrderedMap
import UtxoLedger.Parameters
import UtxoLedger.Pool.Basic
import UtxoLedger.Proofs.Address.Collisions
import UtxoLedger.Proofs.Address.Denotation
import UtxoLedger.Proofs.Address.Envelopes
import UtxoLedger.Proofs.Address.Grammar
import UtxoLedger.Proofs.Address.InPlace
import UtxoLedger.Proofs.Address.Integers
import UtxoLedger.Proofs.Address.Places
import UtxoLedger.Proofs.Address.Prefixes
import UtxoLedger.Proofs.Address.Spellings
import UtxoLedger.Proofs.Bech32.Checksum
import UtxoLedger.Proofs.Bech32.Reading
import UtxoLedger.Proofs.Bech32.Regrouping
import UtxoLedger.Proofs.Build.Conservation
import UtxoLedger.Proofs.Build.FeeSufficiency
import UtxoLedger.Proofs.Build.FilledCoin
import UtxoLedger.Proofs.Build.FundingCheck
import UtxoLedger.Proofs.Build.GivenInputs
import UtxoLedger.Proofs.Build.Inputs
import UtxoLedger.Proofs.Build.MinimumCoin
import UtxoLedger.Proofs.Build.Passes
import UtxoLedger.Proofs.Build.Preparation
import UtxoLedger.Proofs.Build.Reordering
import UtxoLedger.Proofs.Build.RepeatedInputs
import UtxoLedger.Proofs.Build.Reports
import UtxoLedger.Proofs.Build.RequiredKeys
import UtxoLedger.Proofs.Build.Signatures
import UtxoLedger.Proofs.Build.Signing
import UtxoLedger.Proofs.Build.SpentInputs
import UtxoLedger.Proofs.Cbor.Arity
import UtxoLedger.Proofs.Cbor.ByKind
import UtxoLedger.Proofs.Cbor.Embedding
import UtxoLedger.Proofs.Cbor.EncodedLength
import UtxoLedger.Proofs.Cbor.Heads
import UtxoLedger.Proofs.Cbor.KeyMask
import UtxoLedger.Proofs.Cbor.Layouts
import UtxoLedger.Proofs.Cbor.Levels
import UtxoLedger.Proofs.Cbor.Moves
import UtxoLedger.Proofs.Cbor.Projections
import UtxoLedger.Proofs.Cbor.Reads
import UtxoLedger.Proofs.Cbor.Records
import UtxoLedger.Proofs.Cbor.Repetition
import UtxoLedger.Proofs.Cbor.Skip
import UtxoLedger.Proofs.Cbor.Survival
import UtxoLedger.Proofs.Cbor.Walk
import UtxoLedger.Proofs.Cbor.WellFormed
import UtxoLedger.Proofs.Cbor.Yields
import UtxoLedger.Proofs.Chain.Atomicity
import UtxoLedger.Proofs.Chain.Identity
import UtxoLedger.Proofs.Chain.Replay
import UtxoLedger.Proofs.Chain.Submission
import UtxoLedger.Proofs.Document.Hex
import UtxoLedger.Proofs.Document.Metadata
import UtxoLedger.Proofs.Document.Scripts
import UtxoLedger.Proofs.Fee.BundleGrowth
import UtxoLedger.Proofs.Fee.Formula
import UtxoLedger.Proofs.Metadata.Labels
import UtxoLedger.Proofs.Metadata.Tokens
import UtxoLedger.Proofs.Number.Positional
import UtxoLedger.Proofs.OrderedMap
import UtxoLedger.Proofs.Outcome
import UtxoLedger.Proofs.Selection.Change
import UtxoLedger.Proofs.Selection.Completeness
import UtxoLedger.Proofs.Selection.Coverage
import UtxoLedger.Proofs.Selection.Improvement
import UtxoLedger.Proofs.Selection.ShortestCover
import UtxoLedger.Proofs.Selection.Soundness
import UtxoLedger.Proofs.Selection.Splits
import UtxoLedger.Proofs.Value.Differences
import UtxoLedger.Proofs.Value.Expressions
import UtxoLedger.Proofs.Value.Inclusion
import UtxoLedger.Proofs.Value.Order
import UtxoLedger.Proofs.Value.Quantities
import UtxoLedger.Proofs.Value.Sums
import UtxoLedger.Proofs.Wire.Addresses
import UtxoLedger.Proofs.Wire.Arity
import UtxoLedger.Proofs.Wire.CanonicalOrder
import UtxoLedger.Proofs.Wire.Certificates
import UtxoLedger.Proofs.Wire.Forward
import UtxoLedger.Proofs.Wire.Funds
import UtxoLedger.Proofs.Wire.Governance
import UtxoLedger.Proofs.Wire.Lengths
import UtxoLedger.Proofs.Wire.Metadata
import UtxoLedger.Proofs.Wire.Names
import UtxoLedger.Proofs.Wire.Outputs
import UtxoLedger.Proofs.Wire.Received
import UtxoLedger.Proofs.Wire.RepeatedKeys
import UtxoLedger.Proofs.Wire.ScriptReferences
import UtxoLedger.Proofs.Wire.Scripts
import UtxoLedger.Proofs.Wire.Transactions
import UtxoLedger.Rational
import UtxoLedger.Saturating
import UtxoLedger.Script.Basic
import UtxoLedger.Script.Document
import UtxoLedger.Script.Native
import UtxoLedger.Selection.Basic
import UtxoLedger.Selection.LargestFirst
import UtxoLedger.Selection.RandomImprove
import UtxoLedger.Selection.Selector
import UtxoLedger.Text.Decimal
import UtxoLedger.Text.Invisible
import UtxoLedger.Text.Quoted
import UtxoLedger.Text.Utf8
import UtxoLedger.Token
import UtxoLedger.Transaction.Basic
import UtxoLedger.Transaction.Body
import UtxoLedger.Transaction.Output
import UtxoLedger.Transaction.Signing
import UtxoLedger.Transaction.Witness
import UtxoLedger.Validation
import UtxoLedger.Value
import UtxoLedger.VarUint
import UtxoLedger.VarUint.InPlace
import UtxoLedger.Width
