import Gateway.Main
import Gateway.Proofs.Account
import Gateway.Proofs.Anonymity
import Gateway.Proofs.AnyOrder
import Gateway.Proofs.Batch
import Gateway.Proofs.Catalog
import Gateway.Proofs.Clash
import Gateway.Proofs.Clock
import Gateway.Proofs.Closure
import Gateway.Proofs.Collecting
import Gateway.Proofs.Divergence
import Gateway.Proofs.DryRun
import Gateway.Proofs.Exactness
import Gateway.Proofs.Gating
import Gateway.Proofs.Identity
import Gateway.Proofs.Integrity
import Gateway.Proofs.Layers
import Gateway.Proofs.Leaves
import Gateway.Proofs.Lossless
import Gateway.Proofs.Members
import Gateway.Proofs.Parentage
import Gateway.Proofs.Partition
import Gateway.Proofs.Pool
import Gateway.Proofs.Refusal
import Gateway.Proofs.Registry
import Gateway.Proofs.Snapshot
import Gateway.Proofs.Spreading
import Gateway.Proofs.TagOrder
import Gateway.Proofs.Transcript
import Gateway.Proofs.Unread
import Gateway.Proofs.Verdict
import Gateway.Proofs.Versions
import Gateway.Proofs.Views
import Gateway.Proofs.Waves
import Gateway.Sample
import Gateway.Sync
