import Mooncache.Gateway.Config
import Mathlib.Data.List.Forall2
import Mathlib.Data.List.Sort

/-! The tenant file of a gateway: its checks, entry by entry, and whom a bearer token names. -/
namespace Mooncache

inductive ConfigError where
  | parse (message : String)
  | invalid (message : String)
  deriving DecidableEq, Repr

/-- The fields of an entry that are checked or that a modelled function reads. -/
structure RawTenantConfig where
  id : String
  name : String
  enabled : Bool
  apiKeySha256 : String
  requestRateLimitPerMinute : Nat
  streamConcurrencyLimit : Nat
  defaultTtlSeconds : Nat
  maxTtlSeconds : Nat
  allowedVendors : List String
  deriving DecidableEq, Repr

/-- The reader of the entries of a file, by a third-party crate. -/
class TomlReader where
  fromStr : String → Except String (List RawTenantConfig)

/-- Whether the text is empty once trimmed. -/
def isBlank (text : String) : Bool := text.toList.all isWhiteSpace

/-- The source checks UTF-8 bytes, like `CacheKey::from_hex`. -/
def validateSha256 (value : String) : Except ConfigError Unit :=
  if value.toList.length = 64 ∧ value.toList.all isLowerHex then .ok ()
  else .error (.invalid "api_key_sha256 must be 64 lowercase hex characters")

namespace RawTenantConfig

def config (entry : RawTenantConfig) : TenantConfig :=
  ⟨⟨entry.id⟩, entry.enabled, entry.apiKeySha256, entry.allowedVendors⟩

/-- The body of the loop of `parse_toml`, up to the insertion. -/
def check (entry : RawTenantConfig) : Except ConfigError TenantConfig :=
  match TenantId.parse entry.id with
  | .error err => .error (.invalid err.text)
  | .ok id =>
    match validateSha256 entry.apiKeySha256 with
    | .error err => .error err
    | .ok () =>
      if isBlank entry.name then .error (.invalid s!"tenant `{entry.id}` name must not be empty")
      else if entry.requestRateLimitPerMinute = 0 then
        .error (.invalid s!"tenant `{entry.id}` request_rate_limit_per_minute must be greater than zero")
      else if entry.streamConcurrencyLimit = 0 then
        .error (.invalid s!"tenant `{entry.id}` stream_concurrency_limit must be greater than zero")
      else if entry.defaultTtlSeconds = 0 ∨ entry.maxTtlSeconds = 0 then
        .error (.invalid s!"tenant `{entry.id}` TTL values must be greater than zero")
      else if entry.maxTtlSeconds < entry.defaultTtlSeconds then
        .error (.invalid s!"tenant `{entry.id}` default_ttl_seconds must not exceed max_ttl_seconds")
      else if entry.allowedVendors = [] then
        .error (.invalid s!"tenant `{entry.id}` must allow at least one vendor")
      else if entry.allowedVendors.any isBlank then
        .error (.invalid s!"tenant `{entry.id}` allowed_vendors must not contain empty values")
      else .ok ⟨id, entry.enabled, entry.apiKeySha256, entry.allowedVendors⟩

theorem check_eq_ok {entry : RawTenantConfig} {config : TenantConfig} (h : entry.check = .ok config) :
    config = entry.config := by
  unfold check at h
  cases parsed : TenantId.parse entry.id with
  | error err => simp [parsed] at h
  | ok id =>
    cases digest : validateSha256 entry.apiKeySha256 with
    | error err => simp [parsed, digest] at h
    | ok done =>
      simp only [parsed, digest] at h
      repeat' split at h
      all_goals cases h
      rw [TenantId.parse_eq_ok parsed]
      rfl

end RawTenantConfig

namespace TenantConfigSet

def names (configs : TenantConfigSet) : List String := configs.tenants.map Prod.fst

private theorem orderedInsert_sorted {names : List String} {name : String} (sorted : names.Pairwise (· < ·))
    (fresh : name ∉ names) : (names.orderedInsert (· ≤ ·) name).Pairwise (· < ·) := by
  have weak := (sorted.imp le_of_lt).orderedInsert name names
  have distinct : (names.orderedInsert (· ≤ ·) name).Nodup :=
    (List.perm_orderedInsert _ name names).nodup_iff.mpr
      (List.nodup_cons.mpr ⟨fresh, sorted.imp fun less => less.ne⟩)
  exact (weak.and distinct).imp fun ⟨less, other⟩ => lt_of_le_of_ne less other

/-- Insertion of a name that is not there yet. -/
def insert (configs : TenantConfigSet) (name : String) (config : TenantConfig) (fresh : name ∉ configs.names) :
    TenantConfigSet where
  tenants := configs.tenants.orderedInsert (fun a b => a.1 ≤ b.1) (name, config)
  sorted := by
    rw [List.map_orderedInsert _ (· ≤ ·) Prod.fst _ _ (fun _ _ => Iff.rfl) fun _ _ => Iff.rfl]
    exact orderedInsert_sorted configs.sorted fresh

/-- The loop of `parse_toml`. -/
def insertAll (configs : TenantConfigSet) : List RawTenantConfig → Except ConfigError TenantConfigSet
  | [] => .ok configs
  | entry :: rest =>
    match entry.check with
    | .error err => .error err
    | .ok config =>
      if fresh : entry.id ∉ configs.names then insertAll (configs.insert entry.id config fresh) rest
      else .error (.invalid s!"duplicate tenant id `{entry.id}`")

def ofEntries (entries : List RawTenantConfig) : Except ConfigError TenantConfigSet :=
  if entries = [] then .error (.invalid "tenant config must contain at least one tenant")
  else insertAll ⟨[], .nil⟩ entries

def parseToml [TomlReader] (text : String) : Except ConfigError TenantConfigSet :=
  match TomlReader.fromStr text with
  | .error message => .error (.parse message)
  | .ok entries => ofEntries entries

theorem insertAll_perm {configs final : TenantConfigSet} {entries : List RawTenantConfig}
    (h : insertAll configs entries = .ok final) :
    final.tenants.Perm (entries.map (fun entry => (entry.id, entry.config)) ++ configs.tenants) := by
  induction entries generalizing configs with
  | nil =>
    cases h
    exact .refl _
  | cons entry rest ih =>
    unfold insertAll at h
    cases checked : entry.check with
    | error err => simp [checked] at h
    | ok config =>
      simp only [checked] at h
      split at h
      · rw [RawTenantConfig.check_eq_ok checked] at h
        calc final.tenants.Perm _ := ih h
          List.Perm _ _ := (List.perm_orderedInsert _ _ _).append_left _
          List.Perm _ _ := List.perm_middle
      · cases h

/-- An accepted set holds the entries of the file, each under its own name. -/
theorem ofEntries_perm {entries : List RawTenantConfig} {configs : TenantConfigSet}
    (h : ofEntries entries = .ok configs) :
    configs.tenants.Perm (entries.map fun entry => (entry.id, entry.config)) := by
  unfold ofEntries at h
  split at h
  · cases h
  · simpa using insertAll_perm h

/-- Whether an enabled entry lists the digest. -/
def Lists (digest : String) (entry : RawTenantConfig) : Prop := entry.enabled ∧ entry.apiKeySha256 = digest

instance (digest : String) : DecidablePred (Lists digest) := fun _ => inferInstanceAs (Decidable (_ ∧ _))

/-- The enabled tenants with a digest, in the order of their names. -/
def holders (configs : TenantConfigSet) (digest : String) : List TenantConfig :=
  (configs.tenants.map Prod.snd).filter fun tenant => tenant.enabled ∧ tenant.apiKeySha256 = digest

theorem holders_perm {entries : List RawTenantConfig} {configs : TenantConfigSet}
    (h : ofEntries entries = .ok configs) (digest : String) :
    (configs.holders digest).Perm ((entries.filter (Lists digest ·)).map RawTenantConfig.config) := by
  have tenants := ((ofEntries_perm h).map Prod.snd).filter fun tenant => tenant.enabled ∧ tenant.apiKeySha256 = digest
  refine tenants.trans (.of_eq ?_)
  rw [List.map_map, List.filter_map]
  rfl

theorem length_holders {entries : List RawTenantConfig} {configs : TenantConfigSet}
    (h : ofEntries entries = .ok configs) (digest : String) :
    (configs.holders digest).length = entries.countP (Lists digest ·) := by
  rw [(holders_perm h digest).length_eq, List.length_map, List.countP_eq_length_filter]

/-- A file with the same entries in another order, all renamed but the one kept. -/
structure Rearranges (keep : Option TenantId) (rename : RawTenantConfig → RawTenantConfig)
    (entries other : List RawTenantConfig) : Prop where
  renames : ∀ entry ∈ entries, ∃ id name, rename entry = { entry with id, name }
  keeps : ∀ entry ∈ entries, keep = some ⟨entry.id⟩ → rename entry = entry
  perm : other.Perm (entries.map rename)

/-- A renamed entry is enabled, and lists a digest, as before. -/
theorem Rearranges.filter_perm {keep : Option TenantId} {rename : RawTenantConfig → RawTenantConfig}
    {entries other : List RawTenantConfig} (h : Rearranges keep rename entries other) (digest : String) :
    (other.filter (Lists digest ·)).Perm ((entries.filter (Lists digest ·)).map rename) := by
  refine (h.perm.filter _).trans (.of_eq ?_)
  rw [List.filter_map]
  congr 1
  refine List.filter_congr fun entry member => ?_
  obtain ⟨id, name, renamed⟩ := h.renames entry member
  rw [Function.comp_apply, renamed]
  rfl

theorem head?_of_length_le_one {α : Type*} {items : List α} (short : items.length ≤ 1) {item : α}
    (member : item ∈ items) : items.head? = some item := by
  match items, short with
  | [only], _ => rw [List.head?_cons, List.mem_singleton.mp member]

theorem countP_le_one_iff {α : Type*} {p : α → Bool} {items : List α} :
    items.countP p ≤ 1 ↔ items.Pairwise fun a b => ¬ (p a = true ∧ p b = true) := by
  induction items with
  | nil => simp
  | cons item rest ih =>
    rw [List.pairwise_cons, ← ih, List.countP_cons]
    cases holds : p item with
    | false => simp
    | true =>
      have absent : rest.countP p = 0 ↔ ∀ other ∈ rest, ¬ p other = true := List.countP_eq_zero
      simp only [↓reduceIte, true_and, ← absent]
      omega

variable [Sha256]

/-- The first match in the order of the names. -/
theorem tenantForBearerToken_eq (configs : TenantConfigSet) (token : String) :
    configs.tenantForBearerToken token = (configs.holders (sha256Hex token)).head? :=
  List.head?_filter.symm

/-- A token is the key of one tenant at most, whom it authenticates, and of whom no change to the
other tenants of the file deprives it. -/
structure KeyNamesOneTenant (configs : TenantConfigSet) (entries : List RawTenantConfig) (token : String) : Prop where
  unique : (configs.holders (sha256Hex token)).length ≤ 1
  found : ∀ tenant ∈ configs.holders (sha256Hex token), configs.tenantForBearerToken token = some tenant
  missing : configs.holders (sha256Hex token) = [] → configs.tenantForBearerToken token = none
  stable : ∀ rename other otherConfigs,
    Rearranges ((configs.tenantForBearerToken token).map (·.id)) rename entries other →
    ofEntries other = .ok otherConfigs →
    otherConfigs.tenantForBearerToken token = configs.tenantForBearerToken token

/-- A digest that one enabled entry lists belongs to that tenant, in this file and in any rearranged one. -/
theorem keyNamesOneTenant {entries : List RawTenantConfig} {configs : TenantConfigSet}
    (h : ofEntries entries = .ok configs) {token : String} (once : entries.countP (Lists (sha256Hex token) ·) ≤ 1) :
    configs.KeyNamesOneTenant entries token := by
  have perm := holders_perm h (sha256Hex token)
  have unique : (configs.holders (sha256Hex token)).length ≤ 1 := by rwa [length_holders h]
  refine ⟨unique, fun tenant member => ?_, fun none => ?_, fun rename other otherConfigs rearranged accepted => ?_⟩
  · rw [tenantForBearerToken_eq, head?_of_length_le_one unique member]
  · rw [tenantForBearerToken_eq, none, List.head?_nil]
  · have otherPerm := (holders_perm accepted (sha256Hex token)).trans
      ((rearranged.filter_perm (sha256Hex token)).map RawTenantConfig.config)
    rw [List.countP_eq_length_filter] at once
    match listing : entries.filter (Lists (sha256Hex token) ·), once with
    | [], _ =>
      rw [listing] at perm otherPerm
      rw [tenantForBearerToken_eq, tenantForBearerToken_eq, perm.eq_nil, otherPerm.eq_nil]
    | [entry], _ =>
      rw [listing] at perm otherPerm
      have found : configs.tenantForBearerToken token = some entry.config := by
        rw [tenantForBearerToken_eq, List.perm_singleton.mp perm]
        rfl
      have member : entry ∈ entries := List.mem_of_mem_filter (listing ▸ List.mem_singleton_self entry)
      have kept : rename entry = entry := rearranged.keeps entry member (by rw [found]; rfl)
      rw [found, tenantForBearerToken_eq, List.perm_singleton.mp otherPerm, kept]
      rfl

/-- No two enabled entries list the same digest, unless no token has it. -/
def DistinctKeys (entries : List RawTenantConfig) : Prop := (entries.filter (·.enabled)).Pairwise fun a b =>
  a.apiKeySha256 = b.apiKeySha256 → a.apiKeySha256 ∉ Set.range sha256Hex

theorem distinctKeys_iff {entries : List RawTenantConfig} :
    DistinctKeys entries ↔ ∀ token, entries.countP (Lists (sha256Hex token) ·) ≤ 1 := by
  rw [DistinctKeys, List.pairwise_filter]
  simp only [countP_le_one_iff, decide_eq_true_eq, List.pairwise_iff_forall_sublist]
  constructor
  · rintro distinct token a b pair ⟨⟨enabled, has⟩, enabled', same⟩
    exact distinct pair enabled enabled' (has.trans same.symm) ⟨token, has.symm⟩
  · rintro once a b pair enabled enabled' same ⟨token, has⟩
    exact once token pair ⟨⟨enabled, has.symm⟩, enabled', same ▸ has.symm⟩

/-- A token is the key of one tenant at most exactly if at most one enabled entry of the file lists
its digest. -/
theorem every_key_names_one_tenant_iff [TomlReader] {text : String} {entries : List RawTenantConfig}
    {configs : TenantConfigSet} (read : TomlReader.fromStr text = .ok entries)
    (accepted : parseToml text = .ok configs) :
    (∀ token, configs.KeyNamesOneTenant entries token) ↔ DistinctKeys entries := by
  have h : ofEntries entries = .ok configs := by simpa [parseToml, read] using accepted
  rw [distinctKeys_iff]
  refine ⟨fun names token => ?_, fun once token => keyNamesOneTenant h (once token)⟩
  rw [← length_holders h]
  exact (names token).unique

end TenantConfigSet

def demoKey : String := "demo-api-key-do-not-use"

def demoKeyDigest : Vector UInt8 32 := ⟨#[228, 110, 168, 62, 195, 104, 220, 68, 121, 122, 75, 125, 169, 106, 217, 41,
  99, 218, 225, 65, 212, 23, 205, 137, 253, 178, 17, 180, 136, 66, 43, 15], rfl⟩

def teamKey : String := "team-b-api-key-do-not-use"

def teamKeyDigest : Vector UInt8 32 := ⟨#[140, 146, 137, 7, 105, 119, 200, 114, 64, 115, 204, 199, 32, 128, 240, 255,
  39, 114, 87, 142, 81, 18, 162, 195, 42, 5, 88, 139, 228, 251, 9, 23], rfl⟩

/-- The digests of the two keys; all other bytes get the digest that is all zero. -/
@[reducible] def demoDigest : Sha256 where
  sha256 bytes :=
    if bytes = demoKey.toUTF8.toList then demoKeyDigest
    else if bytes = teamKey.toUTF8.toList then teamKeyDigest
    else .replicate 32 0

def demoKeySha256 : String := "e46ea83ec368dc44797a4b7da96ad92963dae141d417cd89fdb211b488422b0f"

def teamKeySha256 : String := "8c9289076977c8724073ccc72080f0ff2772578e5112a2c32a05588be4fb0917"

def demoEntry (id apiKeySha256 : String) : RawTenantConfig where
  id
  name := "Demo Tenant"
  enabled := true
  apiKeySha256
  requestRateLimitPerMinute := 1
  streamConcurrencyLimit := 1
  defaultTtlSeconds := 60
  maxTtlSeconds := 60
  allowedVendors := ["openai"]

def demoTable (id apiKeySha256 : String) : String :=
  "[[tenants]]\nid = \"" ++ id ++ "\"\nname = \"Demo Tenant\"\nenabled = true\n" ++
  "api_key_sha256 = \"" ++ apiKeySha256 ++ "\"\n" ++
  "dram_quota_bytes = 1\nssd_quota_bytes = 0\nrequest_rate_limit_per_minute = 1\n" ++
  "stream_concurrency_limit = 1\nvendor_spend_budget_usd = 1\ndefault_ttl_seconds = 60\n" ++
  "max_ttl_seconds = 60\npolicy = \"cache_first\"\nallowed_vendors = [\"openai\"]\n"

/-- Two tenants with a key each, and two that share one. -/
def ownKeys : List RawTenantConfig := [demoEntry "team-a" demoKeySha256, demoEntry "team-b" teamKeySha256]
def sharedKey : List RawTenantConfig := [demoEntry "team-a" demoKeySha256, demoEntry "team-b" demoKeySha256]

def ownKeysText : String := demoTable "team-a" demoKeySha256 ++ demoTable "team-b" teamKeySha256
def sharedKeyText : String := demoTable "team-a" demoKeySha256 ++ demoTable "team-b" demoKeySha256

/-- The files in the runs on fixed texts. -/
@[reducible] def demoReader : TomlReader where
  fromStr text :=
    if text = ownKeysText then .ok ownKeys else if text = sharedKeyText then .ok sharedKey else .error "unknown text"

namespace TenantConfigSet

theorem parseToml_of_isOk [TomlReader] {text : String} {entries : List RawTenantConfig}
    (read : TomlReader.fromStr text = .ok entries) (fine : (ofEntries entries).isOk = true) :
    ∃ configs, parseToml text = .ok configs := by
  simp only [parseToml, read]
  cases accepted : ofEntries entries with
  | error err => simp [accepted, Except.isOk, Except.toBool] at fine
  | ok configs => exact ⟨configs, rfl⟩

/-- In a file of two tenants with different keys, each token names one of them or none. -/
theorem two_tenants_own_their_keys : let _ := demoDigest; let _ := demoReader
    ∃ configs, parseToml ownKeysText = .ok configs ∧
      (configs.holders (sha256Hex demoKey)).length = 1 ∧ (configs.holders (sha256Hex teamKey)).length = 1 ∧
      ∀ token, configs.KeyNamesOneTenant ownKeys token := by
  intro digest _
  have read : TomlReader.fromStr ownKeysText = .ok ownKeys := if_pos rfl
  obtain ⟨configs, accepted⟩ := parseToml_of_isOk read (by decide)
  have opened : ofEntries ownKeys = .ok configs := by simpa [parseToml, read] using accepted
  have demoHashed : sha256 demoKey.toUTF8.toList = demoKeyDigest := if_pos rfl
  have teamHashed : sha256 teamKey.toUTF8.toList = teamKeyDigest := (if_neg (by decide +kernel)).trans (if_pos rfl)
  refine ⟨configs, accepted, ?_, ?_, (every_key_names_one_tenant_iff read accepted).mpr ?_⟩
  · rw [length_holders opened, sha256Hex, demoHashed]
    decide
  · rw [length_holders opened, sha256Hex, teamHashed]
    decide
  · exact List.pairwise_pair.mpr fun same => absurd same (by decide)

/-- A file in which two enabled tenants list the digest of one key is accepted. -/
theorem shared_key_is_accepted : let _ := demoDigest; let _ := demoReader
    ∃ configs, parseToml sharedKeyText = .ok configs ∧ (configs.holders (sha256Hex demoKey)).length = 2 ∧
      ¬ configs.KeyNamesOneTenant sharedKey demoKey := by
  intro digest _
  have read : TomlReader.fromStr sharedKeyText = .ok sharedKey := (if_neg (by decide +kernel)).trans (if_pos rfl)
  obtain ⟨configs, accepted⟩ := parseToml_of_isOk read (by decide)
  have opened : ofEntries sharedKey = .ok configs := by simpa [parseToml, read] using accepted
  have hashed : sha256 demoKey.toUTF8.toList = demoKeyDigest := if_pos rfl
  have two : (configs.holders (sha256Hex demoKey)).length = 2 := by
    rw [length_holders opened, sha256Hex, hashed]
    decide
  refine ⟨configs, accepted, two, fun names => ?_⟩
  have one := names.unique
  omega

end TenantConfigSet
end Mooncache
