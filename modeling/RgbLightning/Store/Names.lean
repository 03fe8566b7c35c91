import RgbLightning.Basic

/-!
# Names of stored values

Values are stored under a primary namespace, a secondary namespace and a key.  The remote
store has one name for each, `primary/secondary/key`, an empty namespace written `_`.
`parseVssKey` recovers the three parts of a remote name, for keys without the separator
in their namespaces and without a namespace `_` (`parseVssKey_vssKey`); on these `vssKey`
is injective.
-/

namespace RgbLightning

open List

/-- The name of a locally stored value. -/
structure Key where
  primary : Str
  secondary : Str
  key : Str
deriving DecidableEq, Repr

def listRows (rows : Table Key Bytes) (primary secondary : Str) : List Str :=
  (rows.keys.filter fun k => k.primary = primary ∧ k.secondary = secondary).map Key.key

theorem mem_listRows {rows : Table Key Bytes} {primary secondary key : Str} :
  key ∈ listRows rows primary secondary ↔ (rows.lookup ⟨primary, secondary, key⟩).isSome
  := by
  rw [AList.lookup_isSome, AList.mem_keys, listRows, mem_map]
  constructor
  · rintro ⟨k, hk, rfl⟩
    rw [mem_filter, decide_eq_true_eq] at hk
    obtain ⟨hmem, rfl, rfl⟩ := hk
    apply hmem
  · intro hmem
    refine ⟨⟨primary, secondary, key⟩, ?_, rfl⟩
    rw [mem_filter, decide_eq_true_eq]
    exact ⟨hmem, rfl, rfl⟩

theorem nodup_listRows (rows : Table Key Bytes) (primary secondary : Str) :
  (listRows rows primary secondary).Nodup
  := by
  apply Nodup.map_on _ (rows.keys_nodup.filter _)
  rintro ⟨p, s, k⟩ hk ⟨p', s', k'⟩ hk' heq
  simp only [mem_filter, decide_eq_true_eq] at hk hk'
  obtain ⟨-, rfl, rfl⟩ := hk
  obtain ⟨-, rfl, rfl⟩ := hk'
  obtain rfl : k = k' := heq
  rfl

def slash : UInt8 := 47

/-- A namespace as it stands in a remote name. -/
def placeholder (ns : Str) : Str :=
  if ns = [] then str "_" else ns

/-- The name of a value in the remote store. -/
def vssKey (k : Key) : Str :=
  placeholder k.primary ++ slash :: (placeholder k.secondary ++ slash :: k.key)

/-- The parts of a string before and after its first separator. -/
def splitOnce (s : Str) : Option (Str × Str) :=
  match s.span (· ≠ slash) with
  | (_, []) => none
  | (before, _ :: after) => some (before, after)

/-- A namespace read back from a remote name. -/
def unplaceholder (ns : Str) : Str :=
  if ns = str "_" then [] else ns

/-- The name a remote name stands for. -/
def parseVssKey (s : Str) : Option Key := do
  let (primary, rest) ← splitOnce s
  let (secondary, key) ← splitOnce rest
  if key = [] then
    none
  else
    some ⟨unplaceholder primary, unplaceholder secondary, key⟩

/-- The prefix of the remote names of a namespace. -/
def vssKeyPrefix (primary secondary : Str) : Str :=
  placeholder primary ++ slash :: (placeholder secondary ++ [slash])

/-! ### Valid names -/

/-- The characters LDK admits in namespaces and keys: letters, digits, `_` and `-`. -/
def validChar (c : UInt8) : Bool :=
  (97 ≤ c && c ≤ 122) || (65 ≤ c && c ≤ 90) || (48 ≤ c && c ≤ 57) || c == 95 || c == 45

def maxNameLength : ℕ := 120

/-- A string LDK admits as a namespace or a key. -/
def validName (s : Str) : Bool :=
  s.all validChar && s.length ≤ maxNameLength

/-- A key LDK admits, with no namespace `_`: that name stands for the empty namespace in
the remote store. -/
structure Key.Valid (k : Key) : Prop where
  primary : validName k.primary
  secondary : validName k.secondary
  key : validName k.key
  key_ne : k.key ≠ []
  primary_ne : k.primary ≠ str "_"
  secondary_ne : k.secondary ≠ str "_"

instance (k : Key) : Decidable k.Valid :=
  decidable_of_iff
    (validName k.primary ∧ validName k.secondary ∧ validName k.key ∧ k.key ≠ []
      ∧ k.primary ≠ str "_" ∧ k.secondary ≠ str "_")
    ⟨fun ⟨a, b, c, d, e, f⟩ => ⟨a, b, c, d, e, f⟩,
      fun ⟨a, b, c, d, e, f⟩ => ⟨a, b, c, d, e, f⟩⟩

theorem slash_notMem_of_validName {s : Str} (h : validName s) :
  slash ∉ s
  := by
  intro hmem
  have hall := all_eq_true.mp (Bool.and_eq_true_iff.mp h).1 slash hmem
  exact absurd hall (by decide)

theorem slash_notMem_placeholder {ns : Str} (h : slash ∉ ns) :
  slash ∉ placeholder ns
  := by
  unfold placeholder
  split_ifs
  · decide
  · apply h

theorem unplaceholder_placeholder {ns : Str} (h : ns ≠ str "_") :
  unplaceholder (placeholder ns) = ns
  := by
  unfold placeholder
  split_ifs with hns
  · rw [hns]
    rfl
  · rw [unplaceholder, if_neg h]

theorem span_append_slash {a : Str} (h : slash ∉ a) (b : Str) :
  (a ++ slash :: b).span (· ≠ slash) = (a, slash :: b)
  := by
  rw [span_eq_takeWhile_dropWhile]
  have hall : ∀ x ∈ a, decide (x ≠ slash) = true := by
    intro x hx
    apply decide_eq_true
    rintro rfl
    apply h hx
  rw [takeWhile_append_of_pos hall, dropWhile_append_of_pos hall]
  simp

/-- Splitting undoes joining, when the first part does not contain the separator. -/
theorem splitOnce_append {a : Str} (h : slash ∉ a) (b : Str) :
  splitOnce (a ++ slash :: b) = some (a, b)
  := by
  rw [splitOnce, span_append_slash h]

/-- A key that can be read back from its remote name: its namespaces do not contain the
separator and are not `_`. -/
structure Key.Parsable (k : Key) : Prop where
  primary : slash ∉ k.primary
  secondary : slash ∉ k.secondary
  key_ne : k.key ≠ []
  primary_ne : k.primary ≠ str "_"
  secondary_ne : k.secondary ≠ str "_"

variable {k : Key}

theorem Key.Valid.parsable (hk : k.Valid) :
  k.Parsable
  := ⟨slash_notMem_of_validName hk.primary, slash_notMem_of_validName hk.secondary, hk.key_ne,
    hk.primary_ne, hk.secondary_ne⟩

theorem Key.Parsable.parse (hk : k.Parsable) :
  parseVssKey (vssKey k) = some k
  := by
  rw [parseVssKey, vssKey, splitOnce_append (slash_notMem_placeholder hk.primary)]
  simp only [Option.bind_eq_bind, Option.bind_some]
  rw [splitOnce_append (slash_notMem_placeholder hk.secondary)]
  simp only [Option.bind_some, if_neg hk.key_ne]
  rw [unplaceholder_placeholder hk.primary_ne, unplaceholder_placeholder hk.secondary_ne]

theorem parseVssKey_vssKey (hk : k.Valid) :
  parseVssKey (vssKey k) = some k
  := hk.parsable.parse

theorem slash_notMem_of_splitOnce {s a b : Str} (h : splitOnce s = some (a, b)) :
  slash ∉ a
  := by
  rw [splitOnce, span_eq_takeWhile_dropWhile] at h
  split at h
  · cases h
  rename_i before x after heq
  cases h
  rw [← (Prod.mk.inj heq).1]
  intro hmem
  have hne := all_eq_true.mp all_takeWhile slash hmem
  simp at hne

theorem unplaceholder_ne (ns : Str) :
  unplaceholder ns ≠ str "_"
  := by
  rw [unplaceholder]
  split_ifs with h
  · decide
  · exact h

theorem slash_notMem_unplaceholder {ns : Str} (h : slash ∉ ns) :
  slash ∉ unplaceholder ns
  := by
  rw [unplaceholder]
  split_ifs
  · simp
  · exact h

/-- A key that was read from a remote name can be read back from its own. -/
theorem parsable_of_parseVssKey {vk : Str} (h : parseVssKey vk = some k) :
  k.Parsable
  := by
  simp only [parseVssKey, Option.bind_eq_bind, Option.bind_eq_some_iff] at h
  obtain ⟨⟨primary, rest⟩, hprimary, ⟨secondary, key⟩, hsecondary, h⟩ := h
  dsimp only at hsecondary h
  split_ifs at h with hkey
  cases h
  exact ⟨slash_notMem_unplaceholder (slash_notMem_of_splitOnce hprimary),
    slash_notMem_unplaceholder (slash_notMem_of_splitOnce hsecondary), hkey,
    unplaceholder_ne primary, unplaceholder_ne secondary⟩

theorem vssKey_injective {k k' : Key} (hk : k.Valid) (hk' : k'.Valid)
    (h : vssKey k = vssKey k') :
  k = k'
  := by
  have hparse := congrArg parseVssKey h
  rw [parseVssKey_vssKey hk, parseVssKey_vssKey hk'] at hparse
  apply Option.some.inj hparse

/-! ### The names the node uses -/

/-- The local-only namespace of the pending queue. -/
def pendingNs : Str := str "vss_pending"

/-- The name of a row of the pending queue. -/
def pendingKey (vk : Str) : Key := ⟨pendingNs, [], vk⟩

theorem pendingKey_injective :
  Function.Injective pendingKey
  := by
  intro a b h
  apply congrArg Key.key h

/-- The namespace of records that funding may not advance without. -/
def rgbSenderFundingNamespace : Str := str "rgb_sender_funding"

def rgbPrimaryNamespace : Str := str "rgb"

def rgbFundingAcceptanceNamespace : Str := str "funding_acceptance"

def rgbWalletConfigNs : Str := str "wallet_config"

def fenceKey : Str := str "__rln_instance__"

theorem vssKey_ne_fenceKey (k : Key) :
  fenceKey ≠ vssKey k
  := by
  intro h
  have hmem : slash ∈ fenceKey := by
    rw [h, vssKey]
    simp
  exact absurd hmem (by decide)

def channelManagerKey : Key := ⟨[], [], str "manager"⟩

def outputSweeperKey : Key := ⟨[], [], str "output_sweeper"⟩

def networkGraphKey : Key := ⟨[], [], str "network_graph"⟩

def scorerKey : Key := ⟨[], [], str "scorer"⟩

def reimportMarkerNamespace : Str := str "reimport_marker"

def reimportMarkerKey : Str := str "fascia_replay"

/-! ### Common configuration -/

def commonConfigKeys : List Str :=
  [str "indexer_url", str "bitcoin_network", str "wallet_fingerprint",
    str "wallet_account_xpub_vanilla", str "wallet_account_xpub_colored",
    str "wallet_master_fingerprint"]

def isCommonConfig (k : Key) : Bool :=
  k.primary = rgbPrimaryNamespace ∧ k.secondary = rgbWalletConfigNs ∧ k.key ∈ commonConfigKeys

def isCommonRemoteKey (key : Str) : Bool :=
  commonConfigKeys.any fun name =>
    key = rgbPrimaryNamespace ++ slash :: (rgbWalletConfigNs ++ slash :: name)

theorem isCommonRemoteKey_vssKey (hk : isCommonConfig k) :
  isCommonRemoteKey (vssKey k)
  := by
  obtain ⟨primary, secondary, key⟩ := k
  simp only [isCommonConfig, decide_eq_true_eq] at hk
  obtain ⟨rfl, rfl, hmem⟩ := hk
  apply any_eq_true.mpr
  exact ⟨key, hmem, decide_eq_true rfl⟩

/-- The two lists of common configuration agree. -/
theorem exists_isCommonConfig {vk : Str} (hvk : isCommonRemoteKey vk) :
  ∃ c, isCommonConfig c ∧ vk = vssKey c
  := by
  obtain ⟨name, hname, heq⟩ := any_eq_true.mp hvk
  refine ⟨⟨rgbPrimaryNamespace, rgbWalletConfigNs, name⟩, ?_, of_decide_eq_true heq⟩
  simpa [isCommonConfig] using hname

theorem isCommonConfig_parsable {c : Key} (hc : isCommonConfig c) :
  c.Parsable
  := by
  obtain ⟨primary, secondary, key⟩ := c
  simp only [isCommonConfig, decide_eq_true_eq] at hc
  obtain ⟨rfl, rfl, hkey⟩ := hc
  have hkey_ne : key ≠ [] := by
    rintro rfl
    exact absurd hkey (by decide)
  have hprimary : slash ∉ rgbPrimaryNamespace ∧ rgbPrimaryNamespace ≠ str "_" := by decide
  have hsecondary : slash ∉ rgbWalletConfigNs ∧ rgbWalletConfigNs ≠ str "_" := by decide
  exact ⟨hprimary.1, hsecondary.1, hkey_ne, hprimary.2, hsecondary.2⟩

theorem isCommonConfig_primary {c : Key} (hc : isCommonConfig c) :
  c.primary ≠ pendingNs
  := by
  simp only [isCommonConfig, decide_eq_true_eq] at hc
  rw [hc.1]
  decide

end RgbLightning
