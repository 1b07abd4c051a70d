import Mathlib.Data.List.Forall2
import Mathlib.Data.List.Perm.Subperm

/-!
# Requests and their replies

A server reads requests and writes replies. Every reply answers a request of its own:
what was read splits into the requests that were answered, in the order of the replies,
those that wait, and those that were dropped.
-/

namespace Foundation

variable {α β κ : Type}

/-- The requests `read` are answered by `replies`, but for those that wait and dropped ones. -/
def Ledger (Answers : α → β → Prop) (Dropped : α → Prop) (read waiting : List α)
    (replies : List β) : Prop :=
  ∃ answered dropped, (answered ++ waiting ++ dropped).Perm read ∧
    List.Forall₂ Answers answered replies ∧ ∀ request ∈ dropped, Dropped request

namespace Ledger

variable {Answers : α → β → Prop} {Dropped : α → Prop} {read waiting : List α}
  {replies : List β} {request : α} {reply : β}

theorem empty : Ledger Answers Dropped [] [] [] := ⟨[], [], .nil, .nil, by simp⟩

/-- A request is read and waits. -/
theorem wait (ledger : Ledger Answers Dropped read waiting replies) :
    Ledger Answers Dropped (read ++ [request]) (request :: waiting) replies := by
  rcases ledger with ⟨answered, dropped, perm, paired, lost⟩
  refine ⟨answered, dropped, ?_, paired, lost⟩
  have moved : (answered ++ request :: waiting ++ dropped).Perm
      (request :: (answered ++ waiting ++ dropped)) := by
    rw [List.append_assoc, List.append_assoc, List.cons_append]
    exact List.perm_middle
  exact moved.trans ((perm.cons request).trans (List.perm_append_singleton _ _).symm)

/-- A request that waits is dropped. -/
theorem drop (ledger : Ledger Answers Dropped read (request :: waiting) replies)
    (lost : Dropped request) : Ledger Answers Dropped read waiting replies := by
  rcases ledger with ⟨answered, dropped, perm, paired, others⟩
  refine ⟨answered, request :: dropped, ?_, paired, List.forall_mem_cons.mpr ⟨lost, others⟩⟩
  apply List.Perm.trans ?_ perm
  rw [List.append_assoc, List.append_assoc, List.cons_append]
  exact List.perm_middle.append_left answered

/-- A request that waits is answered. -/
theorem answer (ledger : Ledger Answers Dropped read (request :: waiting) replies)
    (answers : Answers request reply) :
    Ledger Answers Dropped read waiting (replies ++ [reply]) := by
  rcases ledger with ⟨answered, dropped, perm, paired, lost⟩
  refine ⟨answered ++ [request], dropped, ?_, List.rel_append paired (.cons answers .nil), lost⟩
  simpa using perm

/-- If replies carry the key of their request, no key is used in more replies than
requests. -/
theorem keys_subperm (ledger : Ledger Answers Dropped read waiting replies) {key : α → κ}
    {replyKey : β → κ} (keyed : ∀ request ∈ read, ∀ reply, Answers request reply →
      replyKey reply = key request) :
    (replies.map replyKey).Subperm (read.map key) := by
  rcases ledger with ⟨answered, dropped, perm, paired, -⟩
  have known : ∀ request ∈ answered, request ∈ read := by
    intro request mem
    apply perm.subset
    simp [mem]
  have same : replies.map replyKey = answered.map key := by
    clear perm
    induction paired with
    | nil => rfl
    | @cons request reply _ _ answers _ ih =>
        rw [List.forall_mem_cons] at known
        rw [List.map_cons, List.map_cons, ih known.2, keyed request known.1 reply answers]
  rw [same]
  apply List.Subperm.trans ?_ (perm.map key).subperm
  rw [List.append_assoc, List.map_append]
  exact (List.sublist_append_left _ _).subperm

end Ledger

end Foundation
