import TableEngine.Main
import TableEngine.Proofs.Acceptance.Comparison
import TableEngine.Proofs.Checked.Engine
import TableEngine.Proofs.Checked.Store
import TableEngine.Proofs.Engine.Agreement
import TableEngine.Proofs.Engine.Display
import TableEngine.Proofs.Engine.Insertion
import TableEngine.Proofs.Engine.Retrieval
import TableEngine.Proofs.Probe.Permutation
import TableEngine.Proofs.Statement.Recognition
import TableEngine.Proofs.Store.Capacity
import TableEngine.Proofs.Store.Resizing
import TableEngine.Proofs.Table.Assignment
import TableEngine.Proofs.Table.Removal
import TableEngine.Proofs.Slots.Reinsertion
import TableEngine.Proofs.Slots.Tombstones
import TableEngine.Proofs.Statement.Positions
import TableEngine.Proofs.Store.Undoing
import TableEngine.Proofs.Table.Union
import TableEngine.Proofs.Store.Identity
import TableEngine.Proofs.Table.Independence
import TableEngine.Proofs.Number.Decimal
import TableEngine.Proofs.Workload.Run
import TableEngine.Proofs.Text.Normal
import TableEngine.Proofs.Text.Runs
import TableEngine.Proofs.Slots.Plan
import TableEngine.Proofs.Hash.Polynomial
