import Kworker.Lib.Js
import Mathlib.Data.List.Nodup

/-!
# JSON values

The values that `JSON.parse` returns, how JavaScript reads them as numbers, and the texts for which
they stand.
-/

namespace Kworker.Lib

/-- The names of an object are distinct. -/
inductive Json where
  | null
  | bool (b : Bool)
  | number (n : Number ℚ)
  | string (s : JsString)
  | array (items : List Json)
  | object (fields : List (JsString × Json))

namespace Json

/-! ## Properties -/

/-- `v[name]` for a name that neither arrays nor prototypes have; `none` is `undefined`. -/
def get (name : JsString) : Json → Option Json
  | .object fields => fields.lookup name
  | _ => none

/-- `v && typeof v === 'object'` -/
def isObject : Json → Bool
  | .array _ => true
  | .object _ => true
  | _ => false

/-- `!!v` -/
def truthy : Json → Bool
  | .null => false
  | .bool b => b
  | .number n => n ≠ .finite 0
  | .string s => s ≠ []
  | .array _ => true
  | .object _ => true

/-- An object with one property for each of the keys. -/
def ofKeys {κ : Type} (keys : List κ) (name : κ → JsString) (value : κ → Json) : Json :=
  .object (keys.map fun k => (name k, value k))

theorem get_ofKeys {κ : Type} {keys : List κ} {name : κ → JsString} (value : κ → Json)
    (hname : Function.Injective name) {k : κ} (hk : k ∈ keys) :
    (ofKeys keys name value).get (name k) = some (value k) := by
  show (keys.map fun k => (name k, value k)).lookup (name k) = some (value k)
  induction keys with
  | nil => cases hk
  | cons j keys ih =>
      rw [List.map_cons, List.lookup_cons]
      by_cases hj : name k = name j
      · rw [hname hj, beq_self_eq_true]
      · rw [beq_eq_false_iff_ne.mpr hj]
        exact ih ((List.mem_cons.mp hk).resolve_left fun he => hj (congrArg name he))

/-! ## Reading a value as a number -/

/-- `String(v)` does not throw: no object in it has a property `toString` of its own, which from JSON
is never a function. -/
def hasText : Json → Bool
  | .array items => allHaveText items
  | .object fields => !fields.any fun f => f.1 == js "toString"
  | _ => true
where
  allHaveText : List Json → Bool
    | [] => true
    | v :: items => v.hasText && allHaveText items

/-- The value whose text comes first in `String(v)`. -/
def first : Json → Json
  | .array items => firstOf items
  | v => v
where
  firstOf : List Json → Json
    | [] => .null
    | v :: _ => v.first

/-- `parseInt(v, 10)` when `v` has a text; what follows the first value in it begins with a comma. -/
def parseInt (v : Json) : Option (Number ℤ) :=
  match v.first with
  | .number n => parseIntNumber n
  | .string s => parseIntText s
  | _ => none

/-- `parseFloat(v)` when `v` has a text; a number is what its text says. -/
def parseFloat (v : Json) : Option (Number ℚ) :=
  match v.first with
  | .number n => some n
  | .string s => parseFloatText s
  | _ => none

/-! ## Texts -/

/-- A value that `JSON.stringify` writes out as it is: the numbers are finite, and the names of an
object are distinct and no array indices, which an object would move to the front. -/
inductive Plain : Json → Prop
  | null : Plain .null
  | bool (b : Bool) : Plain (.bool b)
  | number (q : ℚ) : Plain (.number (.finite q))
  | string (s : JsString) : Plain (.string s)
  | array {items : List Json} (h : ∀ v ∈ items, Plain v) : Plain (.array items)
  | object {fields : List (JsString × Json)} (distinct : (fields.map (·.1)).Nodup)
      (names : ∀ n ∈ fields.map (·.1), n.all isDigit = false) (h : ∀ f ∈ fields, Plain f.2) :
      Plain (.object fields)

theorem plain_ofKeys {κ : Type} {keys : List κ} {name : κ → JsString} {value : κ → Json}
    (hkeys : keys.Nodup) (hname : Function.Injective name)
    (hindex : ∀ k, (name k).all isDigit = false) (hvalue : ∀ k ∈ keys, (value k).Plain) :
    (ofKeys keys name value).Plain := by
  have hnames : (keys.map fun k => (name k, value k)).map (·.1) = keys.map name := by
    rw [List.map_map]
    rfl
  refine .object ?_ ?_ ?_
  · rw [hnames]
    exact List.Nodup.map hname hkeys
  · rw [hnames]
    intro n hn
    obtain ⟨k, _, rfl⟩ := List.mem_map.mp hn
    exact hindex k
  · intro f hf
    obtain ⟨k, hk, rfl⟩ := List.mem_map.mp hf
    exact hvalue k hk

end Json

/-- `JSON.parse` and `JSON.stringify` on the texts of a type; `parse` is `none` when it throws. -/
structure JsonText (Text : Type) where
  empty : Text
  isEmpty : Text → Bool
  parse : Text → Option Json
  stringify : Json → Text
  isEmpty_empty : isEmpty empty = true
  isEmpty_stringify : ∀ v, isEmpty (stringify v) = false
  parse_stringify : ∀ v : Json, v.Plain → parse (stringify v) = some v

namespace JsonText

/-- Texts up to what they say. -/
inductive Written where
  | empty
  | malformed
  | value (v : Json)

/-- The texts `JSON.stringify` writes are those that say a value. -/
def written : JsonText Written where
  empty := .empty
  isEmpty
    | .empty => true
    | _ => false
  parse
    | .value v => some v
    | _ => none
  stringify := .value
  isEmpty_empty := rfl
  isEmpty_stringify _ := rfl
  parse_stringify _ _ := rfl

end JsonText

end Kworker.Lib
