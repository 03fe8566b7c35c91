import RgbLightning.Lib.Run

/-!
# Database ids of channels

The in-process signer gives every new channel a database id, from which its keys are derived.
The ids count up, but the counter is not stored: when the signer starts, it begins one past
the highest id of a channel that the signer still has (`initialNextDbid`).  `dbids_unique`
says when no id is issued twice.
-/

namespace RgbLightning

/-- Where the signer keeps its channels: nowhere, or in its data directory. -/
inductive VlsPersister where
  | dummy
  | disk
deriving DecidableEq

/-- The slots of channels that the signer has, by their ids, the next id of the client, and the
ids issued so far. -/
structure VlsNode where
  slots : List ℕ := []
  nextDbid : ℕ := 1
  issued : List ℕ := []

/-- One past the highest id in use. -/
def initialNextDbid (slots : List ℕ) : ℕ :=
  match slots.max? with
  | none => 1
  | some max => max + 1

/-- What happens to the signer.  A channel is created, and its slot is stored unless that fails;
slots are forgotten or pruned; the signer starts again. -/
inductive VlsEvent where
  | newChannel (stored : Bool)
  | forget (oid : ℕ)
  | restart
deriving DecidableEq

namespace VlsNode

/-- The slots that the signer has when it starts again. -/
def restored (persister : VlsPersister) (s : VlsNode) : List ℕ :=
  match persister with
  | .dummy => []
  | .disk => s.slots

def step (persister : VlsPersister) (s : VlsNode) : VlsEvent → VlsNode
  | .newChannel stored =>
    { slots := if stored then s.nextDbid :: s.slots else s.slots
      nextDbid := s.nextDbid + 1
      issued := s.nextDbid :: s.issued }
  | .forget oid => { s with slots := s.slots.filter (· ≠ oid) }
  | .restart =>
    { s with slots := s.restored persister, nextDbid := initialNextDbid (s.restored persister) }

/-- The signer starts only with a channel whose id is at least that of every channel created. -/
def StartsPast (persister : VlsPersister) (s : VlsNode) : VlsEvent → Prop
  | .restart => ∀ dbid ∈ s.issued, ∃ oid ∈ s.restored persister, dbid ≤ oid
  | _ => True

instance (persister : VlsPersister) (s : VlsNode) :
    (e : VlsEvent) → Decidable (StartsPast persister s e)
  | .restart => inferInstanceAs (Decidable (∀ dbid ∈ s.issued, ∃ oid ∈ s.restored persister,
      dbid ≤ oid))
  | .newChannel _ | .forget _ => .isTrue trivial

/-- No id was issued twice, and the next one is past all of them. -/
structure Fresh (s : VlsNode) : Prop where
  nodup : s.issued.Nodup
  lt_next : ∀ dbid ∈ s.issued, dbid < s.nextDbid

end VlsNode

theorem lt_initialNextDbid {slots : List ℕ} {oid : ℕ} (hoid : oid ∈ slots) :
  oid < initialNextDbid slots
  := by
  rw [initialNextDbid]
  cases hmax : slots.max? with
  | none =>
    rw [List.max?_eq_none_iff] at hmax
    rw [hmax] at hoid
    cases hoid
  | some max =>
    obtain ⟨-, hle⟩ := List.max?_eq_some_iff.mp hmax
    apply Nat.lt_succ_of_le (hle oid hoid)

theorem VlsNode.step_fresh (persister : VlsPersister) (s : VlsNode) (e : VlsEvent) (h : s.Fresh)
    (he : StartsPast persister s e) :
  (s.step persister e).Fresh
  := by
  cases e with
  | newChannel stored =>
    constructor
    · apply List.nodup_cons.mpr ⟨fun hmem => ?_, h.nodup⟩
      apply lt_irrefl _ (h.lt_next _ hmem)
    · intro dbid hmem
      rcases List.mem_cons.mp hmem with rfl | hmem
      · apply Nat.lt_succ_self
      · apply Nat.lt_succ_of_lt (h.lt_next dbid hmem)
  | forget oid => exact ⟨h.nodup, h.lt_next⟩
  | restart =>
    refine ⟨h.nodup, fun dbid hmem => ?_⟩
    obtain ⟨oid, hoid, hle⟩ := he dbid hmem
    apply lt_of_le_of_lt hle (lt_initialNextDbid hoid)

/-- Along every run of creations, removals and restarts that meets the condition, no id is issued
twice. -/
theorem dbids_unique (persister : VlsPersister) (es : List VlsEvent)
    (hes : Run.Meets (VlsNode.step persister) (VlsNode.StartsPast persister) {} es) :
  (Run.run (VlsNode.step persister) {} es).issued.Nodup
  := by
  have hfresh : (Run.run (VlsNode.step persister) {} es).Fresh := by
    apply Run.run_invariant (VlsNode.step_fresh persister) _ hes
    refine ⟨List.nodup_nil, fun dbid hmem => ?_⟩
    cases hmem
  apply hfresh.nodup

/-- The channel with the highest id is forgotten, and the signer starts again: the next channel
has the same id. -/
theorem dbids_unique_forgotten :
  ¬ (Run.run (VlsNode.step .disk) {}
    [.newChannel true, .forget 1, .restart, .newChannel true]).issued.Nodup
  := by
  decide

/-- Another channel is forgotten. -/
theorem dbids_unique_kept :
  (Run.run (VlsNode.step .disk) {}
    [.newChannel true, .newChannel true, .forget 1, .restart, .newChannel true]).issued.Nodup
  := dbids_unique .disk _ (by decide)

end RgbLightning
