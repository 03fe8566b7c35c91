import RgbLightning.Lib.Run
import RgbLightning.Text

/-!
# Revoked tokens

An API token is a chain of blocks with a revocation identifier each; to attenuate a token is
to add a block.  `revokeToken` writes the identifiers of all blocks to the database and adds
them to a set in memory, which is loaded from the database when the node starts.  The
middleware refuses a token with an identifier in the set.

All tokens derived from one root token share its block, so that the revocation of one of
them revokes them all (`revoked_iff_same_root`).
-/

namespace RgbLightning

open List

/-- A token, by the revocation identifiers of its blocks. -/
structure Biscuit where
  authority : Bytes
  attenuations : List Bytes
deriving DecidableEq

def Biscuit.revocationIdentifiers (token : Biscuit) : List Bytes :=
  token.authority :: token.attenuations

/-- The rows of the database, and the set in memory. -/
structure AuthState where
  db : List Str
  revokedTokens : List Bytes

inductive AuthError where
  | unauthorized
  | forbidden
deriving DecidableEq, Repr

/-- What the middleware asks the library for tokens, given the root key if there is one. -/
structure AuthEnv where
  fromBase64 : Option (Str → Option Biscuit)
  isTokenExpired : Biscuit → Bool
  isRole : Biscuit → String → Bool
  isOperationPermitted : Biscuit → Str → Bool
  readOnlyOps : List Str

namespace AuthState

variable (s : AuthState) (token : Biscuit)

/-- A row that is there already is left alone. -/
def addRevokedToken (db : List Str) (id : Bytes) : List Str :=
  if hexStr id ∈ db then db else hexStr id :: db

/-- The result, and the state, when the write of the row of the given number fails. -/
def revokeToken (fails : Option ℕ) : Bool × AuthState :=
  let ids := token.revocationIdentifiers
  match fails.filter (· < ids.length) with
  | some n => (false, { s with db := (ids.take n).foldl addRevokedToken s.db })
  | none => (true, ⟨ids.foldl addRevokedToken s.db, ids ++ s.revokedTokens⟩)

def isTokenRevoked : Bool :=
  token.revocationIdentifiers.any (· ∈ s.revokedTokens)

def loadRevokedTokens : List Bytes :=
  s.db.filterMap hexStrToVec

def conditionalAuthMiddleware (env : AuthEnv) (bearer : Option Str) (op : Str) :
    Except AuthError Unit :=
  match env.fromBase64 with
  | none => .ok ()
  | some fromBase64 =>
    match bearer.bind fromBase64 with
    | none => .error .unauthorized
    | some token =>
      if s.isTokenRevoked token then .error .unauthorized
      else if env.isTokenExpired token then .error .unauthorized
      else if env.isRole token "admin" then .ok ()
      else if env.isRole token "read-only" then
        if op ∈ env.readOnlyOps then .ok () else .error .forbidden
      else if env.isRole token "custom" then
        if env.isOperationPermitted token op then .ok () else .error .forbidden
      else .error .unauthorized

inductive Event where
  | revoke (token : Biscuit) (fails : Option ℕ)
  | restart

def step (s : AuthState) : Event → AuthState
  | .revoke token fails => (s.revokeToken token fails).2
  | .restart => { s with revokedTokens := s.loadRevokedTokens }

/-! ### Revocations -/

/-- Every block has an identifier of its own: tokens with an identifier in common have the
blocks up to it in common. -/
def Fresh (tokens : List Biscuit) : Prop :=
  ∀ t ∈ tokens, ∀ t' ∈ tokens, ∀ id ∈ t.revocationIdentifiers, id ∈ t'.revocationIdentifiers →
    ∃ blocks, blocks ++ [id] <+: t.revocationIdentifiers
      ∧ blocks ++ [id] <+: t'.revocationIdentifiers

theorem Fresh.root_eq {tokens : List Biscuit} (h : Fresh tokens) {t t' : Biscuit} {id : Bytes}
    (ht : t ∈ tokens) (ht' : t' ∈ tokens) (hid : id ∈ t.revocationIdentifiers)
    (hid' : id ∈ t'.revocationIdentifiers) :
  t.authority = t'.authority
  := by
  obtain ⟨blocks, ⟨rest, hrest⟩, ⟨rest', hrest'⟩⟩ := h t ht t' ht' id hid hid'
  cases blocks with
  | nil => exact (cons.inj hrest).1.symm.trans (cons.inj hrest').1
  | cons root blocks => exact (cons.inj hrest).1.symm.trans (cons.inj hrest').1

theorem mem_foldl_addRevokedToken {ids : List Bytes} {db : List Str} {row : Str} :
  row ∈ ids.foldl addRevokedToken db ↔ row ∈ db ∨ ∃ id ∈ ids, hexStr id = row
  := by
  induction ids generalizing db with
  | nil => simp
  | cons id ids ih =>
    have hadd : row ∈ addRevokedToken db id ↔ row ∈ db ∨ hexStr id = row := by
      unfold addRevokedToken
      split_ifs with hmem
      · exact ⟨.inl, fun h => h.elim (fun h => h) fun h => h ▸ hmem⟩
      · rw [mem_cons, or_comm, eq_comm]
    rw [foldl_cons, ih, hadd, exists_mem_cons_iff, or_assoc]

/-- An identifier that was revoked stays so. -/
def Kept (id : Bytes) (s : AuthState) : Prop :=
  hexStr id ∈ s.db ∧ id ∈ s.revokedTokens

theorem Kept.step {id : Bytes} {s : AuthState} (h : Kept id s) (e : Event) :
  Kept id (s.step e)
  := by
  cases e with
  | revoke token fails =>
    rw [AuthState.step, revokeToken]
    split
    · exact ⟨mem_foldl_addRevokedToken.mpr (.inl h.1), h.2⟩
    · exact ⟨mem_foldl_addRevokedToken.mpr (.inl h.1), mem_append_right _ h.2⟩
  | restart => exact ⟨h.1, mem_filterMap.mpr ⟨_, h.1, hexStrToVec_hexStr id⟩⟩

theorem Kept.run {id : Bytes} {s : AuthState} (h : Kept id s) (events : List Event) :
  Kept id (Run.run AuthState.step s events)
  := Run.run_invariant (G := fun _ _ => True) (fun _ e h _ => h.step e) h
    (Run.meets_of_forall (fun _ _ => trivial) _ _)

/-- After a revocation the middleware refuses, now and later, exactly the tokens that derive
from the same root token, besides those it refused before. -/
theorem revoked_iff_same_root {tokens : List Biscuit} (hfresh : Fresh tokens)
    {t t' : Biscuit} (ht : t ∈ tokens) (ht' : t' ∈ tokens) {s s' : AuthState}
    {fails : Option ℕ} (hrevoke : s.revokeToken t fails = (true, s')) {env : AuthEnv}
    {fromBase64 : Str → Option Biscuit} (henv : env.fromBase64 = some fromBase64) {text : Str}
    (htext : fromBase64 text = some t') :
  (∀ op, s'.conditionalAuthMiddleware env (some text) op
      = if t'.authority = t.authority then .error .unauthorized
        else s.conditionalAuthMiddleware env (some text) op)
    ∧ (t'.authority = t.authority → ∀ events op,
      (Run.run step s' events).conditionalAuthMiddleware env (some text) op
        = .error .unauthorized)
  := by
  have hrefused : ∀ s : AuthState, s.isTokenRevoked t' = true → ∀ op,
      s.conditionalAuthMiddleware env (some text) op = .error .unauthorized := by
    intro s h op
    simp only [conditionalAuthMiddleware, henv, Option.bind_some, htext, h, if_true]
  rw [revokeToken] at hrevoke
  split at hrevoke
  · cases hrevoke
  cases hrevoke
  constructor
  · intro op
    split_ifs with hroot
    · apply hrefused
      exact any_eq_true.mpr ⟨t'.authority, mem_cons_self,
        decide_eq_true (mem_append_left _ (hroot ▸ mem_cons_self))⟩
    have hnot : ∀ id ∈ t'.revocationIdentifiers, id ∉ t.revocationIdentifiers :=
      fun _ h h' => hroot (hfresh.root_eq ht' ht h h')
    have hsame : isTokenRevoked ⟨t.revocationIdentifiers.foldl addRevokedToken s.db,
        t.revocationIdentifiers ++ s.revokedTokens⟩ t' = s.isTokenRevoked t' := by
      rw [Bool.eq_iff_iff, isTokenRevoked, isTokenRevoked, any_eq_true, any_eq_true]
      refine exists_congr fun id => and_congr_right fun hid => ?_
      simp [hnot id hid]
    simp only [conditionalAuthMiddleware, henv, Option.bind_some, htext, hsame]
  · intro hroot events
    apply hrefused
    have hkept : Kept t.authority ⟨t.revocationIdentifiers.foldl addRevokedToken s.db,
        t.revocationIdentifiers ++ s.revokedTokens⟩ :=
      ⟨mem_foldl_addRevokedToken.mpr (.inr ⟨_, mem_cons_self, rfl⟩),
        mem_append_left _ mem_cons_self⟩
    exact any_eq_true.mpr ⟨t'.authority, mem_cons_self,
      decide_eq_true (hroot ▸ (hkept.run events).2)⟩

/-- Every text is a root token, with the role of an administrator. -/
def sampleAuth : AuthEnv where
  fromBase64 := some fun text => some ⟨text, []⟩
  isTokenExpired _ := false
  isRole _ role := role = "admin"
  isOperationPermitted _ _ := false
  readOnlyOps := []

theorem revoked_iff_same_root_parent :
  ∃ s', revokeToken ⟨[], []⟩ ⟨[1], [[2]]⟩ none = (true, s') ∧ ∀ events op,
    (Run.run step s' events).conditionalAuthMiddleware sampleAuth (some [1]) op
      = .error .unauthorized
  := by
  have hfresh : Fresh [⟨[1], [[2]]⟩, ⟨[1], []⟩] := by
    have hblocks : ∀ t ∈ [⟨[1], [[2]]⟩, (⟨[1], []⟩ : Biscuit)], ∀ id ∈ t.revocationIdentifiers,
        (if id = [1] then [] else [[1]]) ++ [id] <+: t.revocationIdentifiers := by
      decide
    exact fun t ht t' ht' id hid hid' => ⟨_, hblocks t ht id hid, hblocks t' ht' id hid'⟩
  have hrevoke : revokeToken ⟨[], []⟩ ⟨[1], [[2]]⟩ none = (true, _) := rfl
  exact ⟨_, hrevoke, (revoked_iff_same_root hfresh mem_cons_self
    (mem_cons_of_mem _ mem_cons_self) hrevoke rfl rfl).2 rfl⟩

/-- The token from which a revoked one derives was accepted before. -/
theorem parent_refused :
  ∃ s', revokeToken ⟨[], []⟩ ⟨[1], [[2]]⟩ none = (true, s')
    ∧ conditionalAuthMiddleware ⟨[], []⟩ sampleAuth (some [1]) [] = .ok ()
    ∧ s'.conditionalAuthMiddleware sampleAuth (some [1]) [] = .error .unauthorized
  := ⟨_, rfl, rfl, rfl⟩

end AuthState

end RgbLightning
