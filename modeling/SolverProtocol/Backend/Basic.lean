import SolverProtocol.Request.Write

namespace SolverProtocol

/-- The operations of instances whose state is a `σ`. Answering a request may change the state. The
defaults report no capability and fail as unsupported. -/
structure Backend (σ : Type) where
  /-- The name of this kind of instance in error messages. -/
  kind : σ → String
  supports : σ → Attribute → Bool := fun _ _ => false
  supportsFor : σ → Attribute → IndexKind → Bool := fun _ _ _ => false
  /-- There is a value at present. -/
  canGet : σ → Attribute → Bool := fun _ _ => false
  /-- There is an index of the kind, and a value at each. -/
  canGetFor : σ → Attribute → IndexKind → Bool := fun _ _ _ => false
  canSet : σ → Attribute → Bool := fun _ _ => false
  canSetFor : σ → Attribute → IndexKind → Bool := fun _ _ _ => false
  /-- Something that matches the target has the name. -/
  hasNamed : σ → NameTarget → String → Bool := fun _ _ _ => false
  read : σ → GlobalAttribute → Query σ :=
    fun s a => .fail (.unsupportedAccess (.global a) (kind s)) s
  readAt : σ → {k : IndexKind} → IndexedAttribute k → k.Index → IndexedQuery σ :=
    fun s _ a _ => .fail (.unsupportedAccess a.toAttribute (kind s)) s
  /-- A request left without an answer is put to `readAt` index by index. -/
  readMany : σ → {k : IndexKind} → IndexedAttribute k → List k.Index → BulkQuery σ :=
    fun s _ _ _ => .succeed s
  /-- Success without taking the value counts as unsupported. -/
  write : σ → GlobalAttribute → Assignment σ :=
    fun s a => .fail (.unsupportedAccess (.global a) (kind s)) s
  writeAt : σ → {k : IndexKind} → IndexedAttribute k → k.Index → IndexedAssignment σ :=
    fun s _ a _ => .fail (.unsupportedAccess a.toAttribute (kind s)) s
  /-- Values left in place are put to `writeAt` index by index. -/
  writeMany : σ → {k : IndexKind} → IndexedAttribute k → List k.Index → BulkAssignment σ :=
    fun s _ _ _ => .succeed s
  /-- Finds what matches the target and has the name. -/
  indexNamed : σ → NameTarget → String → Except ProtocolError AnyIndex :=
    fun s target name => .error (.nameNotFound target name (kind s))

end SolverProtocol
