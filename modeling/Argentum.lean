import Argentum.Core.Primality
import Argentum.Core.Curve
import Argentum.Core.Transition
import Argentum.Core.Table
import Argentum.Community.Schema
import Argentum.Community.Wisdom
import Argentum.Community.Attest
import Argentum.Community.Dispute
import Argentum.Community.Finality
import Argentum.Community.Evidence
import Argentum.Community.Concurrency
import Argentum.Community.Karma
import Argentum.Community.Surfaces
import Argentum.Trail.Completeness
import Argentum.Mycelium.Intents
import Argentum.Mycelium.Restarts
import Argentum.Mycelium.Lightning
import Argentum.Mycelium.Confirmation
import Argentum.Mycelium.Replays
import Argentum.Conformance.Settlement
import Argentum.Conformance.Guard
import Argentum.Community.Signing
import Argentum.Conformance.Delegation
import Argentum.Conformance.Resubmission
import Argentum.Community.Ratings
import Argentum.Mycelium.Quotas
import Argentum.Mycelium.Statuses
import Argentum.Mycelium.Following
import Argentum.Community.Migration
import Argentum.Mycelium.Recompute
import Argentum.Trail.Batch
import Argentum.Trail.Numbers
import Argentum.Trail.Canonical
import Argentum.Trail.Tampering
import Argentum.Trail.Totality
import Argentum.Trail.Cadence
import Argentum.Mycelium.Graph
import Argentum.Trail.Reprs
import Argentum.Trail.SortKeys
import Argentum.Conformance.ChainHash
import Argentum.Conformance.Narrowing
import Argentum.Mycelium.Domain
import Argentum.Mycelium.Preimages
import Argentum.Trail.Digests
import Argentum.Mycelium.EvidenceAnchor
import Argentum.Core.Casing
import Argentum.Mycelium.Url
import Argentum.Mycelium.Authority
import Argentum.Mycelium.Webhook
import Argentum.Core.Calendar
import Argentum.Mycelium.Usage
import Argentum.Mycelium.Billing
import Argentum.Mycelium.Weights
import Argentum.Conformance.Broadcast
import Argentum.Community.SelfRating
import Argentum.Conformance.Profiles
import Argentum.Conformance.ExecutionJoin
import Argentum.Conformance.JoinSoundness
import Argentum.Conformance.Rewrites
import Argentum.Conformance.PostCommit
import Argentum.Conformance.Dispatch
import Argentum.Conformance.ProfileGate
import Argentum.Conformance.KeySets
import Argentum.Conformance.FrozenCopies
import Argentum.Conformance.Enforcement
import Argentum.Core.Methods
import Argentum.Core.Timestamp
import Argentum.Trail.Equality
import Argentum.Conformance.ArgsBinding
import Argentum.Conformance.LogicalIdentity
import Argentum.Conformance.References
import Argentum.Conformance.SettlementEvidence
import Argentum.Conformance.PeerReconciliation
import Argentum.Conformance.TwoWitnesses
import Argentum.Conformance.TrustRoot
import Argentum.Conformance.Ecma
import Argentum.Conformance.Openings
import Argentum.Conformance.Schnorr
import Argentum.Conformance.Battery
import Argentum.Conformance.Effects
import Argentum.Mycelium.Invoices
import Argentum.Mycelium.Certification
import Argentum.Mycelium.Keys
import Argentum.Mycelium.Docuseal
import Argentum.Conformance.KeySource
import Argentum.Conformance.AnchoringPrecedence
import Argentum.Conformance.Moltycel
