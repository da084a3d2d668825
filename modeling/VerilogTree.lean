import VerilogTree.Builder.Run
import VerilogTree.Store.Equality
import VerilogTree.Store.Summary
import VerilogTree.Proofs.Builder.Agreement
import VerilogTree.Proofs.Builder.Limit
import VerilogTree.Proofs.Builder.Release
import VerilogTree.Proofs.Builder.Coherence
import VerilogTree.Proofs.Builder.Construction
import VerilogTree.Proofs.Ledger.Recording
import VerilogTree.Proofs.Builder.Accounting
import VerilogTree.Proofs.Builder.ListHistory
import VerilogTree.Proofs.Ledger.Ancestry
import VerilogTree.Proofs.Builder.Forest
import VerilogTree.Proofs.Builder.Staleness
import VerilogTree.Proofs.Builder.Refusal
import VerilogTree.Proofs.Builder.Extension
import VerilogTree.Proofs.Builder.ListOrder
import VerilogTree.Proofs.Builder.CaseDefault
import VerilogTree.Proofs.Deque.Programs
import VerilogTree.Proofs.Builder.DeepEquality
