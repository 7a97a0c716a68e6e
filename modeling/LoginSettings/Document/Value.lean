import LoginSettings.Decimal.Binary64

/-!
# Values

What documents are made of: null, booleans, numbers, strings, arrays and objects. An object is a
list of members; a lookup takes the first member with the key. Keys are put in by their place in
the order of code points, so that an object whose keys increase keeps them increasing.
-/

namespace LoginSettings

/-- A number is a whole number or a number of double precision; `1` and `1.0` are not the same. -/
inductive Number where
  | integer (value : Int)
  | float (value : Binary64)
deriving DecidableEq, Repr

/-- A value of a document. -/
inductive Value where
  | null
  | bool (value : Bool)
  | number (value : Number)
  | string (value : String)
  | array (items : List Value)
  | object (members : List (String × Value))

namespace Value

instance : Inhabited Value := ⟨null⟩

mutual

/-- Equality of values can be decided. -/
def decEq : (v w : Value) → Decidable (v = w)
  | null, null => isTrue rfl
  | bool a, bool b =>
    if h : a = b then isTrue (h ▸ rfl) else isFalse fun e => h (bool.inj e)
  | number a, number b =>
    if h : a = b then isTrue (h ▸ rfl) else isFalse fun e => h (number.inj e)
  | string a, string b =>
    if h : a = b then isTrue (h ▸ rfl) else isFalse fun e => h (string.inj e)
  | array a, array b =>
    match decEqItems a b with
    | isTrue h => isTrue (h ▸ rfl)
    | isFalse h => isFalse fun e => h (array.inj e)
  | object a, object b =>
    match decEqMembers a b with
    | isTrue h => isTrue (h ▸ rfl)
    | isFalse h => isFalse fun e => h (object.inj e)
  | null, bool _ | null, number _ | null, string _ | null, array _ | null, object _
  | bool _, null | bool _, number _ | bool _, string _ | bool _, array _ | bool _, object _
  | number _, null | number _, bool _ | number _, string _ | number _, array _ | number _, object _
  | string _, null | string _, bool _ | string _, number _ | string _, array _ | string _, object _
  | array _, null | array _, bool _ | array _, number _ | array _, string _ | array _, object _
  | object _, null | object _, bool _ | object _, number _ | object _, string _
  | object _, array _ => isFalse nofun

/-- Equality of lists of values can be decided. -/
def decEqItems : (vs ws : List Value) → Decidable (vs = ws)
  | [], [] => isTrue rfl
  | [], _ :: _ | _ :: _, [] => isFalse nofun
  | v :: vs, w :: ws =>
    match decEq v w, decEqItems vs ws with
    | isTrue h, isTrue hs => isTrue (h ▸ hs ▸ rfl)
    | isFalse h, _ => isFalse fun e => h (List.cons.inj e).1
    | _, isFalse hs => isFalse fun e => hs (List.cons.inj e).2

/-- Equality of lists of members can be decided. -/
def decEqMembers : (ms ns : List (String × Value)) → Decidable (ms = ns)
  | [], [] => isTrue rfl
  | [], _ :: _ | _ :: _, [] => isFalse nofun
  | (k, v) :: ms, (l, w) :: ns =>
    if h : k = l then
      match decEq v w, decEqMembers ms ns with
      | isTrue hv, isTrue hs => isTrue (h ▸ hv ▸ hs ▸ rfl)
      | isFalse hv, _ => isFalse fun e => hv (Prod.mk.inj (List.cons.inj e).1).2
      | _, isFalse hs => isFalse fun e => hs (List.cons.inj e).2
    else isFalse fun e => h (Prod.mk.inj (List.cons.inj e).1).1

end

instance : DecidableEq Value := decEq

end Value

/-! ## Members -/

namespace Members

variable {α : Type}

/-- The value of the first member with the key. -/
def find? (key : String) : List (String × α) → Option α
  | [] => none
  | (k, v) :: rest => if key = k then some v else find? key rest

/-- The members with a value at the key: in place of the old one, or in front of the first member
with a greater key. -/
def insert (key : String) (value : α) : List (String × α) → List (String × α)
  | [] => [(key, value)]
  | (k, v) :: rest =>
    if key = k then (key, value) :: rest
    else if key < k then (key, value) :: (k, v) :: rest
    else (k, v) :: insert key value rest

/-- The members without those that have the key. -/
def erase (key : String) (members : List (String × α)) : List (String × α) :=
  members.filter fun member => member.1 ≠ key

/-- The members with each key once and in increasing order, the last value of a key being kept. -/
def ofList (members : List (String × α)) : List (String × α) :=
  members.foldl (fun sorted member => insert member.1 member.2 sorted) []

@[simp] theorem find?_nil (key : String) : find? key ([] : List (String × α)) = none := rfl

/-- What has been inserted is found. -/
theorem find?_insert_self (key : String) (value : α) (members : List (String × α)) :
    find? key (insert key value members) = some value := by
  induction members with
  | nil => simp [insert, find?]
  | cons member rest ih =>
    obtain ⟨k, v⟩ := member
    simp only [insert]
    split
    · simp [find?]
    · split
      · simp [find?]
      · rename_i h _
        simp [find?, h, ih]

/-- Under other keys an insertion changes nothing. -/
theorem find?_insert_ne {key other : String} (h : other ≠ key) (value : α)
    (members : List (String × α)) :
    find? other (insert key value members) = find? other members := by
  induction members with
  | nil => simp [insert, find?, h]
  | cons member rest ih =>
    obtain ⟨k, v⟩ := member
    simp only [insert]
    split
    · subst k; simp [find?, h]
    · split
      · simp [find?, h]
      · by_cases hk : other = k <;> simp [find?, hk, ih]

/-- What has been erased is not found. -/
theorem find?_erase_self (key : String) (members : List (String × α)) :
    find? key (erase key members) = none := by
  induction members with
  | nil => rfl
  | cons member rest ih =>
    obtain ⟨k, v⟩ := member
    by_cases h : k = key
    · simpa [erase, h] using ih
    · simp only [erase, List.filter_cons, h, not_false_eq_true, decide_true, ite_true, ne_eq]
      simp only [find?, Ne.symm h, ite_false]
      exact ih

/-- Under other keys erasing changes nothing. -/
theorem find?_erase_ne {key other : String} (h : other ≠ key) (members : List (String × α)) :
    find? other (erase key members) = find? other members := by
  induction members with
  | nil => rfl
  | cons member rest ih =>
    obtain ⟨k, v⟩ := member
    by_cases hk : k = key
    · subst hk
      simpa [erase, find?, h] using ih
    · by_cases ho : other = k
      · simp [erase, find?, hk, ho]
      · simpa [erase, find?, hk, ho] using ih

end Members

/-! ## Looking into values -/

namespace Value

/-- The member of an object with the key; other values have no members. -/
def member? (key : String) : Value → Option Value
  | object members => Members.find? key members
  | _ => none

/-- The value that is reached by following the keys from the root through objects. -/
def at? : List String → Value → Option Value
  | [], v => some v
  | key :: path, v => (v.member? key).bind (at? path)

/-- A path is followed part by part. -/
theorem at?_append (path rest : List String) (v : Value) :
    v.at? (path ++ rest) = (v.at? path).bind (at? rest) := by
  induction path generalizing v with
  | nil => rfl
  | cons key path ih =>
    simp only [List.cons_append, at?]
    cases v.member? key with
    | none => rfl
    | some w => exact ih w

/-- The items of an array; other values have none. -/
def items? : Value → Option (List Value)
  | array items => some items
  | _ => none

/-- The truth value of a boolean. -/
def bool? : Value → Option Bool
  | bool b => some b
  | _ => none

/-- The text of a string. -/
def string? : Value → Option String
  | string s => some s
  | _ => none

/-- Holds of objects. -/
def isObject : Value → Bool
  | object _ => true
  | _ => false

/-- The array of some strings. -/
def ofStrings (texts : List String) : Value := array (texts.map string)

end Value
end LoginSettings
