import PeerNode.Request

/-!
# The prefix of a hexadecimal member

`JsonTransaction::parse` removes a leading `0x` from four of the seven members it reads, so
that a user may write it or not. Two documents are compared here, one with the prefix on
some of the four and one without. What is read of them is the same, the seven members and the
answer, as long as something stands behind every prefix. A value that is the prefix and
nothing else keeps it: `remove_hex_prefix` asks for more than two characters.
-/

namespace PeerNode

/-- Digits, as many as there are and of either case. -/
def HexDigits (h : String) : Prop := ∀ c ∈ h.toList, (Json.hexVal c).isSome = true

theorem hexDigits_of_all {h : String}
    (all : h.toList.all (fun c => (Json.hexVal c).isSome) = true) : HexDigits h :=
  List.all_eq_true.mp all

/-- Digits are not a prefix. -/
theorem removeHexPrefix_digits {h : String} (digits : HexDigits h) : removeHexPrefix h = h := by
  unfold removeHexPrefix
  split
  · next c rest chars =>
    have x : (Json.hexVal 'x').isSome = true := digits 'x' (by rw [chars]; simp)
    exact absurd x (by decide)
  · rfl

/-- A prefix with something behind it goes. -/
theorem removeHexPrefix_prefixed {h : String} (nonempty : h ≠ "") :
    removeHexPrefix ("0x" ++ h) = h := by
  cases chars : h.toList with
  | nil => exact absurd (String.toList_eq_nil_iff.mp chars) nonempty
  | cons c rest =>
    have spelled : ("0x" ++ h).toList = '0' :: 'x' :: c :: rest := by
      rw [String.toList_append, chars]
      rfl
    rw [removeHexPrefix, spelled]
    show String.ofList (c :: rest) = h
    rw [← chars, String.ofList_toList]

/-! ## The members -/

/-- The members a prefix is removed from. -/
inductive HexMember
  | «to»
  | data
  | pubkey
  | sign
deriving DecidableEq, Repr

def HexMember.name : HexMember → String
  | .«to» => "to"
  | .data => "data"
  | .pubkey => "pubkey"
  | .sign => "sign"

/-- The string a member holds, if it holds one. -/
def stringOrEmpty : Option Json → String
  | some (.str s) => s
  | _ => ""

/-- What is assumed of the library: `is_obj` and `get_string_or_empty` read the members of an
object. -/
structure ReadsParams {TX : Type} (sniper : Sniper TX) : Prop where
  isObj : ∀ members name, sniper.isObj (.obj members) name = true ↔
    ∃ inner, (Json.obj members).member? name = some (.obj inner)
  getStringOrEmpty : ∀ members name,
    sniper.getStringOrEmpty (.obj members) name
      = stringOrEmpty ((Json.obj members).member? name)

variable {TX : Type} (sniper : Sniper TX)

namespace JsonTransaction

/-- A member as `parse` reads it, without its prefix. -/
def hexField (params : Json) (m : HexMember) : String :=
  removeHexPrefix (sniper.getStringOrEmpty params m.name)

/-- The seven members. -/
def readFields (params : Json) : JsonTransaction where
  «to» := hexField sniper params .«to»
  value := sniper.getStringOrEmpty params "value"
  fee := sniper.getStringOrEmpty params "fee"
  nonce := sniper.getStringOrEmpty params "nonce"
  data := hexField sniper params .data
  pubkey := hexField sniper params .pubkey
  sign := hexField sniper params .sign

/-- What `parse` answers of a document with `params`. -/
theorem parse_of_params {sniper : Sniper TX} (reads : ReadsParams sniper)
    {doc params : List (String × Json)} (inside : doc.lookup "params" = some (.obj params)) :
    parse sniper (.obj doc) =
      (readFields sniper (.obj params),
        if (readFields sniper (.obj params)).complete then .ok else .noRequiredParams) := by
  have isObj : sniper.isObj (.obj doc) "params" = true :=
    (reads.isObj doc "params").mpr ⟨params, inside⟩
  unfold parse
  simp only [isObj, Bool.not_true, Bool.false_eq_true, if_false, Json.member?_obj, inside,
    Option.getD_some]
  rfl

end JsonTransaction

/-- The same members, but for a prefix on the digits of those in `S`. -/
structure Prefixed (S : HexMember → Prop) (params params' : List (String × Json)) : Prop where
  digits : ∀ m, S m → ∃ h, HexDigits h ∧ params.lookup m.name = some (.str h) ∧
    params'.lookup m.name = some (.str ("0x" ++ h))
  others : ∀ name, (∀ m, S m → m.name ≠ name) → params'.lookup name = params.lookup name

section Comparing

open JsonTransaction

variable {sniper : Sniper TX} (reads : ReadsParams sniper) {S : HexMember → Prop}
  {params params' : List (String × Json)} (h : Prefixed S params params')
include reads h

/-- A member that is none of the four is read as it was. -/
theorem getStringOrEmpty_other {name : String} (other : ∀ m : HexMember, m.name ≠ name) :
    sniper.getStringOrEmpty (.obj params') name = sniper.getStringOrEmpty (.obj params) name := by
  rw [reads.getStringOrEmpty, reads.getStringOrEmpty, Json.member?_obj, Json.member?_obj,
    h.others name fun m _ => other m]

/-- One of the four is, unless it is prefixed and empty. -/
theorem hexField_eq_iff (m : HexMember) :
    hexField sniper (.obj params') m = hexField sniper (.obj params) m ↔
      (S m → params.lookup m.name ≠ some (.str "")) := by
  unfold hexField
  rw [reads.getStringOrEmpty, reads.getStringOrEmpty, Json.member?_obj, Json.member?_obj]
  by_cases chosen : S m
  · obtain ⟨digits, hex, plain, prefixed⟩ := h.digits m chosen
    rw [plain, prefixed]
    simp only [stringOrEmpty, removeHexPrefix_digits hex, chosen, true_implies, ne_eq,
      Option.some.injEq, Json.str.injEq]
    by_cases empty : digits = ""
    · subst empty
      exact iff_of_false (by decide) fun nonempty => nonempty rfl
    · exact iff_of_true (removeHexPrefix_prefixed empty) empty
  · have same : params'.lookup m.name = params.lookup m.name := by
      apply h.others
      intro m' chosen' name
      have eq : m' = m := by
        cases m' <;> cases m <;> first | rfl | exact absurd name (by decide)
      exact chosen (eq ▸ chosen')
    rw [same]
    exact iff_of_true rfl fun contrary => absurd contrary chosen

/-- All seven members are, unless one is. -/
theorem readFields_eq_iff :
    readFields sniper (.obj params') = readFields sniper (.obj params) ↔
      ∀ m, S m → params.lookup m.name ≠ some (.str "") := by
  simp only [← hexField_eq_iff reads h]
  have value := getStringOrEmpty_other reads h fun m => show m.name ≠ "value" by
    cases m <;> decide
  have fee := getStringOrEmpty_other reads h fun m => show m.name ≠ "fee" by
    cases m <;> decide
  have nonce := getStringOrEmpty_other reads h fun m => show m.name ≠ "nonce" by
    cases m <;> decide
  constructor
  · intro same m
    cases m with
    | «to» => exact congrArg JsonTransaction.«to» same
    | data => exact congrArg JsonTransaction.data same
    | pubkey => exact congrArg JsonTransaction.pubkey same
    | sign => exact congrArg JsonTransaction.sign same
  · intro same
    simp only [readFields, value, fee, nonce, same]

end Comparing

/-- **When the prefix is immaterial.** Two documents that differ in the prefix of some of the four
members give the same answer and the same seven members, if and only if no member is prefixed
that is empty without it. -/
theorem prefix_immaterial_iff {sniper : Sniper TX} (reads : ReadsParams sniper)
    {S : HexMember → Prop} {doc doc' params params' : List (String × Json)}
    (inside : doc.lookup "params" = some (.obj params))
    (inside' : doc'.lookup "params" = some (.obj params')) (h : Prefixed S params params') :
    JsonTransaction.parse sniper (.obj doc') = JsonTransaction.parse sniper (.obj doc) ↔
      ∀ m, S m → params.lookup m.name ≠ some (.str "") := by
  rw [JsonTransaction.parse_of_params reads inside, JsonTransaction.parse_of_params reads inside',
    ← readFields_eq_iff reads h]
  constructor
  · exact congrArg Prod.fst
  · intro same
    rw [same]

/-- The members of a transaction, each of the four with `p` before its digits. -/
def spelled (p data : String) : List (String × Json) :=
  [("to", .str (p ++ "1a")), ("value", .str "2"), ("nonce", .str "3"), ("data", .str (p ++ data)),
   ("pubkey", .str (p ++ "04")), ("sign", .str (p ++ "5F"))]

theorem spelled_prefixed {data : String} (hex : HexDigits data) :
    Prefixed (fun _ => True) (spelled "" data) (spelled "0x" data) where
  digits m _ := by
    cases m with
    | «to» => exact ⟨"1a", hexDigits_of_all rfl, rfl, rfl⟩
    | data => exact ⟨data, hex, congrArg (some ∘ Json.str) String.empty_append, rfl⟩
    | pubkey => exact ⟨"04", hexDigits_of_all rfl, rfl, rfl⟩
    | sign => exact ⟨"5F", hexDigits_of_all rfl, rfl, rfl⟩
  others name other := by
    have ne : ∀ m : HexMember, (name == m.name) = false :=
      fun m => beq_eq_false_iff_ne.mpr fun same => other m trivial same.symm
    have to_ne := ne .«to»
    have data_ne := ne .data
    have pubkey_ne := ne .pubkey
    have sign_ne := ne .sign
    simp only [HexMember.name] at to_ne data_ne pubkey_ne sign_ne
    simp only [spelled, List.lookup_cons, to_ne, data_ne, pubkey_ne, sign_ne]

theorem plain_readsParams : ReadsParams Sniper.plain where
  isObj members name := by
    simp only [Sniper.plain]
    split <;> simp_all
  getStringOrEmpty _ _ := rfl

/-- With a prefix on all four of its members a transaction says the same. -/
theorem prefix_immaterial_iff_plain :
    JsonTransaction.parse Sniper.plain (.obj [("params", .obj (spelled "0x" "b0"))])
      = JsonTransaction.parse Sniper.plain (.obj [("params", .obj (spelled "" "b0"))]) := by
  refine (prefix_immaterial_iff plain_readsParams rfl rfl
    (spelled_prefixed (hexDigits_of_all rfl))).mpr ?_
  intro m _
  cases m <;> simp [spelled, HexMember.name, List.lookup_cons]

/-- Empty data spelled as the prefix alone is not empty. -/
theorem lone_prefix_stays :
    ¬ ∀ (TX : Type) (sniper : Sniper TX) (S : HexMember → Prop)
      (doc doc' params params' : List (String × Json)), ReadsParams sniper →
        doc.lookup "params" = some (.obj params) → doc'.lookup "params" = some (.obj params') →
        Prefixed S params params' →
          JsonTransaction.parse sniper (.obj doc') = JsonTransaction.parse sniper (.obj doc) := by
  intro always
  have same := always Bytes Sniper.plain _ [("params", .obj (spelled "" ""))]
    [("params", .obj (spelled "0x" ""))] _ _ plain_readsParams rfl rfl
    (spelled_prefixed fun _ mem => absurd mem (by simp))
  have data : "0x" = "" := congrArg (·.1.data) same
  exact absurd data (by decide)

end PeerNode
