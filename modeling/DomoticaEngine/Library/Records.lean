import Mathlib.Data.List.AList

/-!
Writing keyed items into a map. An item without a value writes nothing.
-/

set_option autoImplicit false

namespace Records

variable {κ ν : Type} [DecidableEq κ]

abbrev Map (κ ν : Type) := AList (fun _ : κ => ν)

def put (m : Map κ ν) (key : κ) (value : Option ν) : Map κ ν :=
  match value with
  | none => m
  | some v => m.insert key v

def writeTo (m : Map κ ν) (items : List (κ × Option ν)) : Map κ ν :=
  items.foldl (fun m item => put m item.1 item.2) m

theorem put_other {m : Map κ ν} {key k : κ} (h : k ≠ key) (value : Option ν) :
    (put m key value).lookup k = m.lookup k := by
  cases value with
  | none => rfl
  | some v => exact AList.lookup_insert_ne h

theorem writeTo_other {items : List (κ × Option ν)} {k : κ} (h : k ∉ items.map Prod.fst)
    (m : Map κ ν) : (writeTo m items).lookup k = m.lookup k := by
  induction items generalizing m with
  | nil => rfl
  | cons item items ih =>
    simp only [List.map_cons,List.mem_cons,not_or] at h
    change (writeTo (put m item.1 item.2) items).lookup k = _
    rw [ih h.2,put_other h.1]

theorem writeTo_item {items : List (κ × Option ν)} (hkeys : (items.map Prod.fst).Nodup)
    {item : κ × Option ν} (hitem : item ∈ items) {m : Map κ ν} (hm : m.lookup item.1 = none) :
    (writeTo m items).lookup item.1 = item.2 := by
  induction items generalizing m with
  | nil => simp at hitem
  | cons first items ih =>
    simp only [List.map_cons,List.nodup_cons] at hkeys
    change (writeTo (put m first.1 first.2) items).lookup item.1 = _
    rcases List.mem_cons.mp hitem with rfl | hrest
    · rw [writeTo_other hkeys.1]
      cases hvalue : item.2 with
      | none => exact hm
      | some v => exact AList.lookup_insert m
    · have hne : item.1 ≠ first.1 := by
        intro heq
        exact hkeys.1 (heq ▸ List.mem_map_of_mem hrest)
      exact ih hkeys.2 hrest (by rw [put_other hne,hm])

theorem writeTo_empty {items : List (κ × Option ν)} (hkeys : (items.map Prod.fst).Nodup)
    {item : κ × Option ν} (hitem : item ∈ items) :
    (writeTo ∅ items).lookup item.1 = item.2 :=
  writeTo_item hkeys hitem (AList.lookup_empty _)

end Records
