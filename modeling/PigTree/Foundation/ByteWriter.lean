import PigTree.Foundation.ByteReader

/-!
# Writing bytes

A writer appends to what has been written and may fail; what it wrote before
failing stays. A writer that succeeds is known by the bytes it appends.
-/

namespace Foundation

/-- A computation that appends bytes to an output and may fail. -/
abbrev ByteWriter (ε α : Type) : Type := ExceptT ε (StateM (List UInt8)) α

namespace ByteWriter

variable {ε α β : Type}

def writeAll (bytes : List UInt8) : ByteWriter ε Unit := fun out => (.ok (), out ++ bytes)

/-- Fail and leave the output as it is. -/
def fail (err : ε) : ByteWriter ε α := fun out => (.error err, out)

/-- The writer succeeds and appends exactly these bytes. -/
def Writes (writer : ByteWriter ε Unit) (bytes : List UInt8) : Prop :=
  ∀ out, writer out = (.ok (), out ++ bytes)

namespace Writes

variable {writer next : ByteWriter ε Unit} {bytes more : List UInt8}

theorem writeAll (bytes : List UInt8) :
    Writes (ByteWriter.writeAll bytes : ByteWriter ε Unit) bytes := fun _ => rfl

theorem pure : Writes (Pure.pure () : ByteWriter ε Unit) [] := by
  intro out
  rw [List.append_nil]
  rfl

/-- Writers in sequence append their bytes in sequence. -/
theorem seq (first : Writes writer bytes) (second : Writes next more) :
    Writes (writer >>= fun _ => next) (bytes ++ more) := by
  intro out
  have run : (writer >>= fun _ => next) out = next (out ++ bytes) := by
    simp only [bind, ExceptT.bind, ExceptT.mk, StateT.bind, first out, ExceptT.bindCont]
  rw [run, second, List.append_assoc]

theorem after (bytes : List UInt8) (second : Writes next more) :
    Writes (ByteWriter.writeAll bytes >>= fun _ => next) (bytes ++ more) :=
  (writeAll bytes).seq second

/-- The bytes appended by one writer for each item. -/
theorem forM {item : Type} {write : item → ByteWriter ε Unit} {encode : item → List UInt8}
    {items : List item} (each : ∀ element ∈ items, Writes (write element) (encode element)) :
    Writes (ForM.forM items write) (items.flatMap encode) := by
  induction items with
  | nil => exact pure
  | cons head tail ih =>
      rw [List.forM_cons, List.flatMap_cons]
      apply seq (each head List.mem_cons_self)
      exact ih (fun element elementMem => each element (List.mem_cons_of_mem _ elementMem))

end Writes

/-- The writer fails after it has appended these bytes. -/
def Aborts (writer : ByteWriter ε Unit) (bytes : List UInt8) : Prop :=
  ∃ err, ∀ out, writer out = (.error err, out ++ bytes)

namespace Aborts

variable {writer next : ByteWriter ε Unit} {bytes more : List UInt8}

theorem fail (err : ε) : Aborts (ByteWriter.fail err) [] := by
  refine ⟨err, fun out => ?_⟩
  rw [List.append_nil]
  rfl

/-- What comes after a failure is not written. -/
theorem bind (first : Aborts writer bytes) : Aborts (writer >>= fun _ => next) bytes := by
  rcases first with ⟨err, fails⟩
  refine ⟨err, fun out => ?_⟩
  simp only [Bind.bind, ExceptT.bind, ExceptT.mk, StateT.bind, fails out, ExceptT.bindCont]
  rfl

/-- What came before a failure has been written. -/
theorem seq (first : Writes writer bytes) (second : Aborts next more) :
    Aborts (writer >>= fun _ => next) (bytes ++ more) := by
  rcases second with ⟨err, fails⟩
  refine ⟨err, fun out => ?_⟩
  have run : (writer >>= fun _ => next) out = next (out ++ bytes) := by
    simp only [Bind.bind, ExceptT.bind, ExceptT.mk, StateT.bind, first out, ExceptT.bindCont]
  rw [run, fails, List.append_assoc]

theorem after (bytes : List UInt8) (second : Aborts next more) :
    Aborts (ByteWriter.writeAll bytes >>= fun _ => next) (bytes ++ more) :=
  seq (Writes.writeAll bytes) second

end Aborts

end ByteWriter

end Foundation
