import Mathlib.Data.String.Basic
import CodebaseGraph.Collections.SortedMap
import CodebaseGraph.Syntax.Arena

/-! The fields of JSON values, as `serde_json` gives access to them. -/

namespace CodebaseGraph.Syntax.Value

open CodebaseGraph.Collections

/-- The field of an object. -/
def get? (value : Value) (key : String) : Option Value :=
  value.asObject.bind
    (fun entries => (entries.find? (fun entry => entry.1 = key)).map Prod.snd)

/-- An object with a field; anything else stays as it is. -/
def insert (value : Value) (key : String) (field : Value) : Value :=
  match value with
  | object entries => object (insertSorted key field entries)
  | other => other

/-- Changes a field in its place, if there is one. -/
def modify (value : Value) (key : String) (change : Value → Value) : Value :=
  match value with
  | object entries =>
      object
        (entries.map (fun entry => if entry.1 = key then (key, change entry.2) else entry))
  | other => other

def isObject (value : Value) : Bool := value.asObject.isSome

/-- The items of a field that is an array. -/
def items? (value : Value) (key : String) : Option (List Value) :=
  (value.get? key).bind asArray

-- Fields

variable {value : Value} {key other : String}

theorem get?_insert (value : Value) (key : String) (field : Value) (other : String)
    : (value.insert key field).get? other
      = if other = key then (if value.isObject then some field else none)
        else value.get? other := by
  cases value with
  | object entries =>
      simp only [insert, get?, asObject, Option.bind_some, SortedMap.find?_insertSorted, isObject,
        Option.isSome_some, if_true]
      split <;> rfl
  | _ => simp [insert, get?, asObject, isObject]

@[simp]
theorem isObject_insert (value : Value) (key : String) (field : Value)
    : (value.insert key field).isObject = value.isObject := by
  cases value <;> rfl

@[simp]
theorem isObject_modify (value : Value) (key : String) (change : Value → Value)
    : (value.modify key change).isObject = value.isObject := by
  cases value <;> rfl

theorem get?_modify (value : Value) (key : String) (change : Value → Value) (other : String)
    : (value.modify key change).get? other
      = if other = key then (value.get? key).map change else value.get? other := by
  cases value with
  | object entries =>
      simp only [modify, get?, asObject, Option.bind_some]
      induction entries with
      | nil => split <;> rfl
      | cons entry rest ih =>
          by_cases here : entry.1 = key
          · by_cases same : other = key
            · simp [here, same]
            · have absent : ¬key = other := fun equal => same equal.symm
              simp only [List.map_cons, here, if_true, List.find?_cons, absent, decide_false]
              simpa [same] using ih
          · by_cases same : entry.1 = other
            · have different : ¬other = key := fun equal => here (same.trans equal)
              simp [same, different]
            · by_cases wanted : other = key
              · subst wanted
                simpa [here] using ih
              · simpa [here, same, wanted] using ih
  | _ => simp [modify, get?, asObject]

/-- The last of two changes of a field that forget the old one. -/
theorem modify_modify (value : Value) (key : String) (first second : Value)
    : (value.modify key (fun _ => first)).modify key (fun _ => second)
      = value.modify key (fun _ => second) := by
  cases value with
  | object entries =>
      simp only [modify, List.map_map]
      congr 2
      funext entry
      by_cases here : entry.1 = key <;> simp [here]
  | _ => rfl

/-- A field that is entered again with the value that it has. -/
theorem insertSorted_self {entries : List (String × Value)}
    (sorted : entries.Pairwise (fun first second => first.1 < second.1))
    (found : (entries.find? (fun entry => entry.1 = key)).map Prod.snd = some value)
    : insertSorted key value entries = entries := by
  induction entries with
  | nil => cases found
  | cons first rest ih =>
      obtain ⟨name, stored⟩ := first
      obtain ⟨least, tail⟩ := List.pairwise_cons.mp sorted
      by_cases here : name = key
      · subst here
        obtain rfl : stored = value := by simpa using found
        simp [insertSorted]
      · have later : (rest.find? (fun entry => entry.1 = key)).map Prod.snd = some value := by
          simpa [here] using found
        obtain ⟨entry, member, -⟩ := Option.map_eq_some_iff.mp later
        have after : name < key := by
          have named : entry.1 = key := by simpa using List.find?_some member
          exact named ▸ least entry (List.mem_of_find?_eq_some member)
        rw [insertSorted, if_neg (not_lt_of_gt after), if_neg (Ne.symm here), ih tail later]

end CodebaseGraph.Syntax.Value
