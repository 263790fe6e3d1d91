import VaultRun.Data.Json

/-!
What the audit log keeps of a payload: values under keys that look secret are struck out, and what comes out too
long is replaced by a stub.
-/

namespace VaultRun.Audit

open VaultRun.Data Json

def redactKeySubstrings : List String :=
  ["secret", "password", "passwd", "token", "apikey", "api_key", "walletapikey", "privatekey", "private_key",
    "launchsecret"]

def maxAuditFieldBytes : ℕ := 16384

variable {ι κ ν : Type} (toLowerCase : String → String)

def isSecretKey (key : String) : Bool :=
  redactKeySubstrings.any fun s => s.toList <:+: (toLowerCase key).toList

/-- `out[key] = val`: a key that is there keeps its place. Under `__proto__` an object has a setter for its
prototype, so that no entry comes of it. -/
def assign (out : List (String × Json κ ν)) (key : String) (val : Json κ ν) : List (String × Json κ ν) :=
  if key = "__proto__" then out
  else if key ∈ out.map Prod.fst then out.map fun e => if e.1 = key then (key, val) else e
  else out ++ [(key, val)]

section Scrub

variable [DecidableEq ι]

mutual

def scrub (seen : List ι) : Json ι ν → Json Unit ν × List ι
  | .null => (.null, seen)
  | .bool b => (.bool b, seen)
  | .num n => (.num n, seen)
  | .str s => (.str s, seen)
  | .arr id items =>
      if id ∈ seen then (.str "[circular]", seen)
      else
        let r := scrubItems (id :: seen) items
        (.arr () r.1, r.2)
  | .obj id entries =>
      if id ∈ seen then (.str "[circular]", seen)
      else
        let r := scrubEntries (id :: seen) [] entries
        (.obj () r.1, r.2)

def scrubItems (seen : List ι) : List (Json ι ν) → List (Json Unit ν) × List ι
  | [] => ([], seen)
  | item :: items =>
      let r := scrub seen item
      let rest := scrubItems r.2 items
      (r.1 :: rest.1, rest.2)

def scrubEntries (seen : List ι) (out : List (String × Json Unit ν)) :
    List (String × Json ι ν) → List (String × Json Unit ν) × List ι
  | [] => (out, seen)
  | (key, val) :: entries =>
      if isSecretKey toLowerCase key then scrubEntries seen (assign out key (.str "[redacted]")) entries
      else
        let r := scrub seen val
        scrubEntries r.2 (assign out key r.1) entries

end

variable [NatCast ν] (number : ν → String)

def sanitizeAuditPayload (v : Json ι ν) : Json Unit ν :=
  let scrubbed := (scrub toLowerCase [] v).1
  let json := length (stringify number scrubbed)
  if maxAuditFieldBytes < json then .obj () [("truncated", .bool true), ("bytes", .num json)] else scrubbed

end Scrub

mutual

/-- Two payloads are the same but for what stands under a key that looks secret. -/
def Alike : Json ι ν → Json κ ν → Prop
  | .null, .null => True
  | .bool b, .bool b' => b = b'
  | .num n, .num n' => n = n'
  | .str s, .str s' => s = s'
  | .arr _ items, .arr _ items' => AlikeItems items items'
  | .obj _ entries, .obj _ entries' => AlikeEntries entries entries'
  | _, _ => False

def AlikeItems : List (Json ι ν) → List (Json κ ν) → Prop
  | [], [] => True
  | v :: items, v' :: items' => Alike v v' ∧ AlikeItems items items'
  | _, _ => False

def AlikeEntries : List (String × Json ι ν) → List (String × Json κ ν) → Prop
  | [], [] => True
  | (key, v) :: entries, (key', v') :: entries' =>
      key = key' ∧ (isSecretKey toLowerCase key ∨ Alike v v') ∧ AlikeEntries entries entries'
  | _, _ => False

end

mutual

/-- No object has a key `__proto__` of its own, but below a key that looks secret. -/
def NoProto : Json ι ν → Prop
  | .arr _ items => NoProtoItems items
  | .obj _ entries => NoProtoEntries entries
  | .null | .bool _ | .num _ | .str _ => True

def NoProtoItems : List (Json ι ν) → Prop
  | [] => True
  | v :: items => NoProto v ∧ NoProtoItems items

def NoProtoEntries : List (String × Json ι ν) → Prop
  | [] => True
  | (key, v) :: entries =>
      key ≠ "__proto__" ∧ (isSecretKey toLowerCase key ∨ NoProto v) ∧ NoProtoEntries entries

end

mutual

def clean : Json ι ν → Json Unit ν
  | .null => .null
  | .bool b => .bool b
  | .num n => .num n
  | .str s => .str s
  | .arr _ items => .arr () (cleanItems items)
  | .obj _ entries => .obj () (cleanEntries entries)

def cleanItems : List (Json ι ν) → List (Json Unit ν)
  | [] => []
  | v :: items => clean v :: cleanItems items

def cleanEntries : List (String × Json ι ν) → List (String × Json Unit ν)
  | [] => []
  | (key, v) :: entries =>
      if key = "__proto__" then cleanEntries entries
      else (key, if isSecretKey toLowerCase key then .str "[redacted]" else clean v) :: cleanEntries entries

end

variable {toLowerCase}

section Clean

variable {v : Json ι ν} {items : List (Json ι ν)} {entries : List (String × Json ι ν)}

lemma keys_cleanEntries : (cleanEntries toLowerCase entries).map Prod.fst =
    (entries.map Prod.fst).filter (· ≠ "__proto__") := by
  induction entries with
  | nil => rfl
  | cons e entries ih =>
      by_cases hp : e.1 = "__proto__"
      · rw [cleanEntries, if_pos hp, ih, List.map_cons, List.filter_cons_of_neg (by simp [hp])]
      · rw [cleanEntries, if_neg hp, List.map_cons, ih, List.map_cons, List.filter_cons_of_pos (by simp [hp])]

end Clean

section Tree

variable [DecidableEq ι] {v : Json ι ν} {items : List (Json ι ν)} {entries : List (String × Json ι ν)} {seen : List ι}

/-- Where nothing is shared nothing is met twice: the visited objects do not show in what comes out. -/
def Scrubs (toLowerCase : String → String) (v : Json ι ν) : Prop :=
  ∀ seen, v.ids.Nodup → v.KeysDistinct → (∀ i ∈ v.ids, i ∉ seen) →
    (scrub toLowerCase seen v).1 = clean toLowerCase v ∧ ∀ i ∈ (scrub toLowerCase seen v).2, i ∈ seen ∨ i ∈ v.ids

lemma scrubItems_of (ih : ∀ v ∈ items, Scrubs toLowerCase v) (hids : (idsOfItems items).Nodup)
    (hkeys : KeysDistinctItems items) (hseen : ∀ i ∈ idsOfItems items, i ∉ seen) :
    (scrubItems toLowerCase seen items).1 = cleanItems toLowerCase items ∧
      ∀ i ∈ (scrubItems toLowerCase seen items).2, i ∈ seen ∨ i ∈ idsOfItems items := by
  induction items generalizing seen with
  | nil => exact ⟨rfl, fun i hi => .inl hi⟩
  | cons v items ihitems =>
      obtain ⟨hv, hitems, hapart⟩ := List.nodup_append.1 hids
      obtain ⟨hval, hvisited⟩ := ih v (.head _) seen hv hkeys.1 fun i hi => hseen i (List.mem_append_left _ hi)
      have hfresh : ∀ i ∈ idsOfItems items, i ∉ (scrub toLowerCase seen v).2 := by
        intro i hi hmem
        rcases hvisited i hmem with hs | hs
        · exact hseen i (List.mem_append_right _ hi) hs
        · exact hapart i hs i hi rfl
      obtain ⟨hrest, hvisited'⟩ := ihitems (fun v hv => ih v (.tail _ hv)) hitems hkeys.2 hfresh
      refine ⟨?_, fun i hi => ?_⟩
      · rw [scrubItems, cleanItems, hval, hrest]
      · rcases hvisited' i hi with hs | hs
        · exact (hvisited i hs).imp_right (List.mem_append_left _)
        · exact .inr (List.mem_append_right _ hs)

lemma assign_new {κ : Type} {out : List (String × Json κ ν)} {key : String} {val : Json κ ν}
    (hnew : key ∉ out.map Prod.fst) :
    assign out key val = if key = "__proto__" then out else out ++ [(key, val)] := by
  rw [assign, if_neg hnew]

lemma scrubEntries_of (ih : ∀ e ∈ entries, Scrubs toLowerCase e.2) {out : List (String × Json Unit ν)}
    (hids : (idsOfEntries entries).Nodup) (hkeys : KeysDistinctEntries entries)
    (hdistinct : (entries.map Prod.fst).Nodup) (hout : ∀ k ∈ entries.map Prod.fst, k ∉ out.map Prod.fst)
    (hseen : ∀ i ∈ idsOfEntries entries, i ∉ seen) :
    (scrubEntries toLowerCase seen out entries).1 = out ++ cleanEntries toLowerCase entries ∧
      ∀ i ∈ (scrubEntries toLowerCase seen out entries).2, i ∈ seen ∨ i ∈ idsOfEntries entries := by
  induction entries generalizing seen out with
  | nil => exact ⟨(List.append_nil _).symm, fun i hi => .inl hi⟩
  | cons e entries ihentries =>
      obtain ⟨key, v⟩ := e
      obtain ⟨hv, hentries, hapart⟩ := List.nodup_append.1 hids
      obtain ⟨hhead, htail⟩ := List.nodup_cons.1 hdistinct
      have hnew : key ∉ out.map Prod.fst := hout key (.head _)
      have hassigned (val : Json Unit ν) : ∀ k ∈ entries.map Prod.fst, k ∉ (assign out key val).map Prod.fst := by
        intro k hk
        rw [assign_new hnew]
        split_ifs
        · exact hout k (.tail _ hk)
        · rw [List.map_append, List.mem_append, not_or]
          refine ⟨hout k (.tail _ hk), ?_⟩
          rintro hmem
          obtain rfl := List.mem_singleton.1 hmem
          exact hhead hk
      have happend (val : Json Unit ν) (hval : val = if isSecretKey toLowerCase key then .str "[redacted]"
          else clean toLowerCase v) : assign out key val ++ cleanEntries toLowerCase entries =
            out ++ cleanEntries toLowerCase ((key, v) :: entries) := by
        rw [assign_new hnew, cleanEntries, hval]
        split_ifs <;> simp
      by_cases hsecret : isSecretKey toLowerCase key
      · have hfresh : ∀ i ∈ idsOfEntries entries, i ∉ seen := fun i hi => hseen i (List.mem_append_right _ hi)
        obtain ⟨hrest, hvisited⟩ := ihentries (fun e he => ih e (.tail _ he)) hentries hkeys.2 htail
          (hassigned (.str "[redacted]")) hfresh
        rw [scrubEntries, if_pos hsecret]
        exact ⟨hrest.trans (happend _ (by rw [if_pos hsecret])),
          fun i hi => (hvisited i hi).imp_right (List.mem_append_right _)⟩
      · obtain ⟨hval, hvisited⟩ := ih (key, v) (.head _) seen hv hkeys.1 fun i hi =>
          hseen i (List.mem_append_left _ hi)
        have hfresh : ∀ i ∈ idsOfEntries entries, i ∉ (scrub toLowerCase seen v).2 := by
          intro i hi hmem
          rcases hvisited i hmem with hs | hs
          · exact hseen i (List.mem_append_right _ hi) hs
          · exact hapart i hs i hi rfl
        obtain ⟨hrest, hvisited'⟩ := ihentries (fun e he => ih e (.tail _ he)) hentries hkeys.2 htail
          (hassigned (scrub toLowerCase seen v).1) hfresh
        rw [scrubEntries, if_neg hsecret]
        refine ⟨hrest.trans (happend _ (by rw [if_neg hsecret, hval])), fun i hi => ?_⟩
        rcases hvisited' i hi with hs | hs
        · exact (hvisited i hs).imp_right (List.mem_append_left _)
        · exact .inr (List.mem_append_right _ hs)

lemma scrubs (v : Json ι ν) : Scrubs toLowerCase v := by
  induction v using Json.induct with
  | null | bool | num | str => exact fun seen _ _ _ => ⟨rfl, fun i hi => .inl hi⟩
  | arr id items ih =>
      intro seen hids hkeys hseen
      obtain ⟨hid, hitems⟩ := List.nodup_cons.1 hids
      have hfresh : ∀ i ∈ idsOfItems items, i ∉ id :: seen := by
        intro i hi hmem
        rcases List.mem_cons.1 hmem with rfl | hmem
        · exact hid hi
        · exact hseen i (.tail _ hi) hmem
      obtain ⟨hval, hvisited⟩ := scrubItems_of ih hitems hkeys hfresh
      rw [scrub, if_neg (hseen id (.head _))]
      dsimp only
      refine ⟨by rw [clean, hval], fun i hi => ?_⟩
      rcases hvisited i hi with hs | hs
      · rcases List.mem_cons.1 hs with rfl | hs
        · exact .inr (.head _)
        · exact .inl hs
      · exact .inr (.tail _ hs)
  | obj id entries ih =>
      intro seen hids hkeys hseen
      obtain ⟨hid, hentries⟩ := List.nodup_cons.1 hids
      have hfresh : ∀ i ∈ idsOfEntries entries, i ∉ id :: seen := by
        intro i hi hmem
        rcases List.mem_cons.1 hmem with rfl | hmem
        · exact hid hi
        · exact hseen i (.tail _ hi) hmem
      have hempty : ∀ k ∈ entries.map Prod.fst, k ∉ ([] : List (String × Json Unit ν)).map Prod.fst := by simp
      obtain ⟨hval, hvisited⟩ := scrubEntries_of ih hentries hkeys.2 hkeys.1 hempty hfresh
      rw [scrub, if_neg (hseen id (.head _))]
      dsimp only
      refine ⟨by rw [clean, hval, List.nil_append], fun i hi => ?_⟩
      rcases hvisited i hi with hs | hs
      · rcases List.mem_cons.1 hs with rfl | hs
        · exact .inr (.head _)
        · exact .inl hs
      · exact .inr (.tail _ hs)

lemma scrub_tree (t : Tree ι ν) : (scrub toLowerCase [] t.val).1 = clean toLowerCase t.val :=
  (scrubs t.val [] t.unshared t.distinct (by simp)).1

end Tree

section Alike

variable {v : Json ι ν} {items : List (Json ι ν)} {entries : List (String × Json ι ν)}

lemma cleanItems_of_alike (ih : ∀ v ∈ items, ∀ v' : Json κ ν, Alike toLowerCase v v' →
    clean toLowerCase v = clean toLowerCase v') {items' : List (Json κ ν)}
    (h : AlikeItems toLowerCase items items') : cleanItems toLowerCase items = cleanItems toLowerCase items' := by
  induction items generalizing items' with
  | nil =>
      cases items' with
      | nil => rfl
      | cons v' items' => exact h.elim
  | cons v items ihitems =>
      cases items' with
      | nil => exact h.elim
      | cons v' items' =>
          rw [cleanItems, cleanItems, ih v (.head _) v' h.1, ihitems (fun v hv => ih v (.tail _ hv)) h.2]

lemma cleanEntries_of_alike (ih : ∀ e ∈ entries, ∀ v' : Json κ ν, Alike toLowerCase e.2 v' →
    clean toLowerCase e.2 = clean toLowerCase v') {entries' : List (String × Json κ ν)}
    (h : AlikeEntries toLowerCase entries entries') :
    cleanEntries toLowerCase entries = cleanEntries toLowerCase entries' := by
  induction entries generalizing entries' with
  | nil =>
      cases entries' with
      | nil => rfl
      | cons e' entries' => exact h.elim
  | cons e entries ihentries =>
      cases entries' with
      | nil => exact h.elim
      | cons e' entries' =>
          obtain ⟨key, v⟩ := e
          obtain ⟨key', v'⟩ := e'
          obtain ⟨rfl, hval, hrest⟩ := h
          have hstands : (if isSecretKey toLowerCase key then .str "[redacted]" else clean toLowerCase v : Json Unit ν) =
              if isSecretKey toLowerCase key then .str "[redacted]" else clean toLowerCase v' := by
            by_cases hsecret : isSecretKey toLowerCase key
            · rw [if_pos hsecret, if_pos hsecret]
            · rw [if_neg hsecret, if_neg hsecret, ih (key, v) (.head _) v' (hval.resolve_left hsecret)]
          rw [cleanEntries, cleanEntries, hstands, ihentries (fun e he => ih e (.tail _ he)) hrest]

lemma clean_of_alike {v' : Json κ ν} (h : Alike toLowerCase v v') :
    clean toLowerCase v = clean toLowerCase v' := by
  induction v using Json.induct generalizing v' with
  | null | bool | num | str =>
      cases v' <;> first | exact h.elim | skip
      first | rfl | (obtain rfl := h; rfl)
  | arr id items ih =>
      cases v' with
      | arr id' items' => rw [clean, clean, cleanItems_of_alike (fun v hv v' h => ih v hv h) h]
      | null | bool | num | str | obj => exact h.elim
  | obj id entries ih =>
      cases v' with
      | obj id' entries' => rw [clean, clean, cleanEntries_of_alike (fun e he v' h => ih e he h) h]
      | null | bool | num | str | arr => exact h.elim

lemma alike_cleanItems (ih : ∀ v ∈ items, Alike toLowerCase v (clean toLowerCase v) ↔ NoProto toLowerCase v) :
    AlikeItems toLowerCase items (cleanItems toLowerCase items) ↔ NoProtoItems toLowerCase items := by
  induction items with
  | nil => exact Iff.rfl
  | cons v items ihitems => exact and_congr (ih v (.head _)) (ihitems fun v hv => ih v (.tail _ hv))

lemma alike_cleanEntries
    (ih : ∀ e ∈ entries, Alike toLowerCase e.2 (clean toLowerCase e.2) ↔ NoProto toLowerCase e.2) :
    AlikeEntries toLowerCase entries (cleanEntries toLowerCase entries) ↔ NoProtoEntries toLowerCase entries := by
  induction entries with
  | nil => exact Iff.rfl
  | cons e entries ihentries =>
      obtain ⟨key, v⟩ := e
      by_cases hp : key = "__proto__"
      · rw [cleanEntries, if_pos hp, NoProtoEntries]
        refine iff_of_false (fun h => ?_) fun h => h.1 hp
        cases hc : cleanEntries toLowerCase entries with
        | nil =>
            rw [hc] at h
            exact h.elim
        | cons e' rest =>
            rw [hc] at h
            have hkey : e'.1 ∈ (cleanEntries toLowerCase entries).map Prod.fst := by simp [hc]
            rw [keys_cleanEntries] at hkey
            have hne : e'.1 ≠ "__proto__" := by simpa using (List.mem_filter.1 hkey).2
            exact hne (h.1.symm.trans hp)
      · have hval : (isSecretKey toLowerCase key ∨ Alike toLowerCase v
            (if isSecretKey toLowerCase key then .str "[redacted]" else clean toLowerCase v)) ↔
            (isSecretKey toLowerCase key ∨ NoProto toLowerCase v) := by
          by_cases hsecret : isSecretKey toLowerCase key
          · exact iff_of_true (.inl hsecret) (.inl hsecret)
          · rw [if_neg hsecret]
            exact or_congr Iff.rfl (ih (key, v) (.head _))
        rw [cleanEntries, if_neg hp, AlikeEntries, NoProtoEntries, hval,
          ihentries fun e he => ih e (.tail _ he)]
        simp [hp]

lemma alike_clean (v : Json ι ν) : Alike toLowerCase v (clean toLowerCase v) ↔ NoProto toLowerCase v := by
  induction v using Json.induct with
  | null => exact Iff.rfl
  | bool | num | str => exact iff_of_true rfl trivial
  | arr id items ih => exact alike_cleanItems ih
  | obj id entries ih => exact alike_cleanEntries ih

end Alike

section Results

variable [DecidableEq ι] [NatCast ν]

/-- What stands under a key that looks secret shows nowhere, not even in the size; and a tree that fits keeps the
rest of it where, and only where, no object outside has a key `__proto__`. -/
theorem payload_scrubbed (toLowerCase : String → String) (number : ν → String) :
    (∀ t t' : Tree ι ν, Alike toLowerCase t.val t'.val →
      sanitizeAuditPayload toLowerCase number t.val = sanitizeAuditPayload toLowerCase number t'.val) ∧
    ∀ t : Tree ι ν, length (stringify number (scrub toLowerCase [] t.val).1) ≤ maxAuditFieldBytes →
      (Alike toLowerCase t.val (sanitizeAuditPayload toLowerCase number t.val) ↔ NoProto toLowerCase t.val) := by
  constructor
  · intro t t' h
    unfold sanitizeAuditPayload
    rw [scrub_tree, scrub_tree, clean_of_alike h]
  · intro t hfits
    unfold sanitizeAuditPayload
    rw [if_neg (not_lt.2 hfits), scrub_tree]
    exact alike_clean t.val

def lowerAscii (s : String) : String := String.ofList (s.toList.map Char.toLower)

def session (token : String) : Tree ℕ ℕ where
  val := .obj 0 [("player", .str "p"), ("sessionToken", .str token)]
  unshared := by simp [ids, idsOfEntries]
  distinct := ⟨by simp, trivial, trivial, trivial⟩

theorem tokens_struck :
    sanitizeAuditPayload lowerAscii toString (session "a").val =
      sanitizeAuditPayload lowerAscii toString (session "b").val ∧
    Alike lowerAscii (session "a").val (sanitizeAuditPayload lowerAscii toString (session "a").val) := by
  have hsecret : isSecretKey lowerAscii "sessionToken" := by decide +kernel
  have hfits : length (stringify toString (scrub lowerAscii [] (session "a").val).1) ≤ maxAuditFieldBytes := by
    rw [scrub_tree]
    decide +kernel
  exact ⟨(payload_scrubbed lowerAscii toString).1 _ _ ⟨rfl, .inr rfl, rfl, .inl hsecret, trivial⟩,
    ((payload_scrubbed lowerAscii toString).2 _ hfits).2
      ⟨by decide, .inr trivial, by decide, .inl hsecret, trivial⟩⟩

/-- `JSON.parse` of an object whose only key is `__proto__`. -/
def protoTree : Tree ℕ ℕ where
  val := .obj 0 [("__proto__", .bool true)]
  unshared := by decide
  distinct := ⟨by decide, trivial, trivial⟩

/-- The key is gone. -/
theorem proto_key_lost : ∃ t : Tree ℕ ℕ,
    length (stringify toString (scrub lowerAscii [] t.val).1) ≤ maxAuditFieldBytes ∧
      ¬ Alike lowerAscii t.val (sanitizeAuditPayload lowerAscii toString t.val) := by
  have hscrub : (scrub lowerAscii [] protoTree.val).1 = .obj () [] := scrub_tree protoTree
  have hlength : length (stringify toString (scrub lowerAscii [] protoTree.val).1) ≤ maxAuditFieldBytes := by
    rw [hscrub]
    decide
  refine ⟨protoTree, hlength, ?_⟩
  unfold sanitizeAuditPayload
  dsimp only
  rw [if_neg (not_lt.2 hlength), hscrub]
  exact id

end Results

end VaultRun.Audit
