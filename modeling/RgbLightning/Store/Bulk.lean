import RgbLightning.Store.Rules

/-!
# Reading the whole server

The keys on the server are listed page by page, and the objects of a page are fetched and
decrypted.  Whatever the sizes of the pages are, a listing or a download that succeeds
returns exactly what is on the server, except for the fence.
-/

namespace RgbLightning

open Prog StoreWorld VssKvStore List Option

/-- The keys on the server from a position on, except for the fence. -/
def StoreWorld.listedFrom (w : StoreWorld) (start : ℕ) : List Str :=
  (w.server.keys.drop start).filter (· ≠ fenceKey)

def StoreWorld.valuesOf (w : StoreWorld) (keys : List Str) : List (Str × Bytes) :=
  keys.filterMap fun vk => (w.remoteValue vk).map (vk, ·)

theorem StoreWorld.mem_listedFrom_zero {w : StoreWorld} {vk : Str} :
  vk ∈ w.listedFrom 0 ↔ (w.remoteValue vk).isSome ∧ vk ≠ fenceKey
  := by
  rw [listedFrom, drop_zero, mem_filter, decide_eq_true_eq,
    remoteValue, isSome_map, AList.lookup_isSome, AList.mem_keys]

theorem StoreWorld.mem_valuesOf {w : StoreWorld} {keys : List Str} {vk : Str} {value : Bytes} :
  (vk, value) ∈ w.valuesOf keys ↔ vk ∈ keys ∧ w.remoteValue vk = some value
  := by
  simp only [valuesOf, mem_filterMap, map_eq_some_iff, Prod.mk.injEq]
  constructor
  · rintro ⟨vk, hvk, value, hvalue, rfl, rfl⟩
    exact ⟨hvk, hvalue⟩
  · rintro ⟨hvk, hvalue⟩
    exact ⟨vk, hvk, value, hvalue, rfl, rfl⟩

section Bulk

variable {G : Guard storeInterface StoreWorld StoreFault} {C : StoreWorld → Prop}
variable {w : StoreWorld} {remote : VssKvStore}

/-- A page of the keys: either the rest of them, or a part and the position of the next
page. -/
theorem wp_listKeyVersions {token : Option ℕ}
    {Q : Except VssError (List Str × Option ℕ) → StoreWorld → Prop} (hcrash : C w.reboot)
    (hlast : Q (.ok (w.server.keys.drop (token.getD 0), none)) w)
    (hmore : ∀ n, Q (.ok ((w.server.keys.drop (token.getD 0)).take n,
      some (token.getD 0 + n))) w)
    (herror : ∀ e, Q (.error e) w) :
  (storeOp (.listKeyVersions token)).wp storeMachine G C Q w
  := by
  refine ⟨fun _ => hcrash, fun f _ => ?_⟩
  cases f with
  | remoteFails e => apply herror
  | remoteLost e => apply herror
  | page size =>
    simp only [StoreWorld.exec, StoreFault.remoteAnswer, StoreFault.remoteError?,
      StoreWorld.listPage, getD_some]
    split_ifs with h
    · apply hmore
    · rw [take_of_length_le (Nat.le_of_not_lt h)]
      exact hlast
  | _ => exact hlast

theorem listedFrom_split (w : StoreWorld) (start n : ℕ) :
  ((w.server.keys.drop start).take n).filter (· ≠ fenceKey) ++ w.listedFrom (start + n)
    = w.listedFrom start
  := by
  rw [listedFrom, listedFrom, ← filter_append, ← drop_drop,
    take_append_drop]

theorem listAllKeysFrom_wp (pages : ℕ) (token : Option ℕ)
    {Q : Except IoError (List Str) → StoreWorld → Prop} (hcrash : C w.reboot) (hstop : C w)
    (hok : Q (.ok (w.listedFrom (token.getD 0))) w) (herror : ∀ e, Q (.error e) w) :
  (remote.listAllKeysFrom pages token).wp storeMachine G C Q w
  := by
  induction pages generalizing token Q with
  | zero => exact ⟨fun _ => hcrash, fun _ _ => hstop⟩
  | succ pages ih =>
    rw [listAllKeysFrom, wp_bind]
    apply wp_listKeyVersions hcrash
    · exact hok
    · intro n
      dsimp only
      rw [wp_bind]
      apply ih
      · dsimp only [getD_some]
        rw [pure_eq_ret, wp_ret, listedFrom_split]
        exact hok
      · intro e
        apply herror
    · intro e
      apply herror

/-! ### Downloading -/

def Fetched (w : StoreWorld) (vk : Str) (answer : Except VssError (Option KeyValue)) : Prop :=
  answer = .ok (Objects.get w.server vk) ∨ ∃ e, answer = .error e

theorem fetch_wp (keys : List Str)
    {Q : List (Except VssError (Option KeyValue)) → StoreWorld → Prop} (hcrash : C w.reboot)
    (hQ : ∀ answers, Forall₂ (Fetched w) keys answers → Q answers w) :
  (fetch keys).wp storeMachine G C Q w
  := by
  induction keys generalizing Q with
  | nil => exact hQ [] Forall₂.nil
  | cons key keys ih =>
    have hrest : ∀ answer, Fetched w key answer →
        (fetch keys >>= fun rest => pure (answer :: rest)).wp storeMachine G C
          Q w := by
      intro answer hanswer
      rw [wp_bind]
      apply ih
      intro answers hanswers
      exact hQ _ (Forall₂.cons hanswer hanswers)
    rw [fetch, wp_bind]
    apply wp_getObject hcrash
    · intro object hobject
      apply hrest
      left
      rw [Objects.get, hobject]
      rfl
    · intro hnone
      apply hrest
      left
      rw [Objects.get, hnone]
      rfl
    · rintro ⟨e, he⟩
      have herror := hrest (.error e) (Or.inr ⟨e, rfl⟩)
      cases e with
      | noSuchKeyError => exact absurd rfl he
      | _ => exact herror

variable {Q : Except IoError (List (Str × Bytes)) → StoreWorld → Prop}

theorem decryptAll_wp {keys : List Str} {answers : List (Except VssError (Option KeyValue))}
    (hanswers : Forall₂ (Fetched w) keys answers) (hcrash : C w.reboot)
    (hok : Q (.ok (w.valuesOf keys)) w) (herror : ∀ e, Q (.error e) w) :
  (decryptAll answers).wp storeMachine G C Q w
  := by
  induction hanswers generalizing Q with
  | nil => exact hok
  | @cons vk answer keys answers hanswer hanswers ih =>
    obtain rfl | ⟨e, rfl⟩ := hanswer
    · rcases hobject : w.server.lookup vk with _ | object
      · rw [Objects.get, hobject, map_none, decryptAll]
        apply ih _ herror
        rw [valuesOf, filterMap_cons_none] at hok
        · exact hok
        · rw [remoteValue, hobject]
          rfl
      rw [Objects.get, hobject, map_some, decryptAll, wp_bind]
      apply wp_localAnswer (k := id) (fun _ => rfl) hcrash
      · dsimp only [id]
        rw [wp_bind]
        apply ih
        · rw [valuesOf, filterMap_cons_some
            (b := (vk, object.value))] at hok
          · exact hok
          · rw [remoteValue, hobject]
            rfl
        · intro e
          apply herror
      · intro e
        apply herror
    · apply herror

theorem downloadAllFrom_wp (pages : ℕ) (token : Option ℕ) (hcrash : C w.reboot) (hstop : C w)
    (hok : Q (.ok (w.valuesOf (w.listedFrom (token.getD 0)))) w) (herror : ∀ e, Q (.error e) w) :
  (remote.downloadAllFrom pages token).wp storeMachine G C Q w
  := by
  induction pages generalizing token Q with
  | zero => exact ⟨fun _ => hcrash, fun _ _ => hstop⟩
  | succ pages ih =>
    rw [downloadAllFrom, wp_bind]
    apply wp_listKeyVersions hcrash
    · dsimp only
      rw [wp_bind]
      apply fetch_wp _ hcrash
      intro answers hanswers
      rw [wp_bind]
      apply decryptAll_wp hanswers hcrash
      · exact hok
      · intro e
        apply herror
    · intro n
      dsimp only
      rw [wp_bind]
      apply fetch_wp _ hcrash
      intro answers hanswers
      rw [wp_bind]
      apply decryptAll_wp hanswers hcrash
      · dsimp only
        rw [wp_bind]
        apply ih
        · dsimp only [getD_some]
          rw [pure_eq_ret, wp_ret, valuesOf, valuesOf,
            ← filterMap_append, listedFrom_split]
          exact hok
        · intro e
          apply herror
      · intro e
        apply herror
    · intro e
      apply herror

end Bulk

/-- Whatever fails and however large the pages are, a download that returns has changed
nothing, and it returns an error or exactly the objects on the server, except for the
fence. -/
theorem downloadAll_exact (remote : VssKvStore) (pages : ℕ) (w : StoreWorld)
    (fs : List (Fate StoreFault)) :
  let download := remote.downloadAll pages
  download.result storeMachine w fs = none
    ∨ download.world storeMachine w fs = w
      ∧ ((∃ e, download.result storeMachine w fs = some (.error e))
        ∨ ∃ entries, download.result storeMachine w fs = some (.ok entries)
          ∧ ∀ vk value, (vk, value) ∈ entries ↔ vk ≠ fenceKey ∧ w.remoteValue vk = some value)
  := by
  intro download
  have hwp : download.wp storeMachine anyFate (fun _ => True)
      (fun answer w' => w' = w
        ∧ ((∃ e, answer = .error e) ∨ answer = .ok (w.valuesOf (w.listedFrom 0)))) w :=
    downloadAllFrom_wp pages none trivial trivial ⟨rfl, .inr rfl⟩ fun e => ⟨rfl, .inl ⟨e, rfl⟩⟩
  have hexec := (exec_of_wp download w fs hwp (admits_anyFate download w fs)).1
  rcases hresult : download.result storeMachine w fs with _ | answer
  · exact .inl rfl
  obtain ⟨hworld, ⟨e, rfl⟩ | rfl⟩ := hexec answer hresult
  · exact .inr ⟨hworld, .inl ⟨e, rfl⟩⟩
  · refine .inr ⟨hworld, .inr ⟨_, rfl, fun vk value => ?_⟩⟩
    rw [mem_valuesOf, mem_listedFrom_zero]
    constructor
    · rintro ⟨⟨-, hvk⟩, hvalue⟩
      exact ⟨hvk, hvalue⟩
    · rintro ⟨hvk, hvalue⟩
      exact ⟨⟨isSome_of_eq_some hvalue, hvk⟩, hvalue⟩

end RgbLightning
