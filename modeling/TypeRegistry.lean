import TypeRegistry.Class.Call
import TypeRegistry.Scope.Describe
import TypeRegistry.Session.Class
import TypeRegistry.Shape.Describe
import TypeRegistry.Proofs.Class.Outcome
import TypeRegistry.Proofs.Class.Effect
import TypeRegistry.Proofs.Class.Heap
import TypeRegistry.Proofs.Class.Ownership
import TypeRegistry.Proofs.Class.ResolutionOrder
import TypeRegistry.Proofs.Class.Construction
import TypeRegistry.Proofs.Class.Sealing
import TypeRegistry.Proofs.Class.History
import TypeRegistry.Proofs.Class.Refusal
import TypeRegistry.Proofs.Shape.Induction
import TypeRegistry.Proofs.Text.Reading
import TypeRegistry.Proofs.Shape.NormalForm
import TypeRegistry.Proofs.Shape.Unambiguous
import TypeRegistry.Proofs.Class.Identity
import TypeRegistry.Proofs.Class.Independence
import TypeRegistry.Proofs.Shape.Replacement
import TypeRegistry.Proofs.Class.Stability
import TypeRegistry.Proofs.Class.Creation
import TypeRegistry.Proofs.Scope.Declarations
import TypeRegistry.Proofs.Class.Provenance
import TypeRegistry.Proofs.Class.Tables
import TypeRegistry.Proofs.Shape.Equality
import TypeRegistry.Proofs.Session.Exposure
import TypeRegistry.Proofs.Class.Snapshot
import TypeRegistry.Proofs.Class.Audit
import TypeRegistry.Proofs.Path.Canonical
import TypeRegistry.Proofs.Shape.Respelling
import TypeRegistry.Proofs.Text.Encoding
import TypeRegistry.Proofs.Text.Lossy
import TypeRegistry.Proofs.Path.Display
import TypeRegistry.Proofs.Text.Quoted
import TypeRegistry.Proofs.Debug.Outline
import TypeRegistry.Proofs.Debug.Layout
import TypeRegistry.Proofs.Shape.DebugText
import TypeRegistry.Proofs.Signature.Build
import TypeRegistry.Proofs.Class.Warnings
