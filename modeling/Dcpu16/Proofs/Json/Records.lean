import Dcpu16.Json.Fields
import Dcpu16.Proofs.Except
import Dcpu16.Proofs.Json.Literals

/-! Records are read as the fields that they are made of, and words as what they are. -/

namespace Dcpu16.Json.Value

variable {α β : Type}

theorem length_eq_of_mapM {f : α → Option β} {xs : List α} {ys : List β}
    (h : xs.mapM f = some ys) : xs.length = ys.length := by
  induction xs generalizing ys with
  | nil =>
    obtain rfl := Option.some.inj h
    rfl
  | cons x xs ih =>
    rw [List.mapM_cons] at h
    obtain ⟨y, -, h⟩ := Option.bind_eq_some_iff.mp h
    obtain ⟨ys', hys, h⟩ := Option.bind_eq_some_iff.mp h
    obtain rfl := Option.some.inj h
    rw [List.length_cons, List.length_cons, ih hys]

theorem nat?_nat {limit n : Nat} (h : n ≤ limit) : (nat n).nat? limit = some n := by
  simp [nat, nat?, toNat?_ofNat, h]

@[simp] theorem word?_nat (w : UInt16) : (nat w.toNat).word? = some w := by
  have hw : w.toNat ≤ 0xFFFF := Nat.le_of_lt_succ w.toNat_lt
  simp [word?, nat?_nat hw]

/-- A list is read if each of its elements is. -/
theorem list?_array {element? : Value → Option α} {toValue : α → Value}
    (h : ∀ x, element? (toValue x) = some x) (xs : List α) :
    (array (xs.map toValue)).list? element? = some xs := by
  rw [list?, List.mapM_map]
  exact (mapM_eq_some_map fun x _ => h x).trans (by rw [List.map_id'])

/-- A field that the members have once is found. -/
theorem fieldOf?_eq {members : List (String × Value)} (hnodup : (members.map Prod.fst).Nodup)
    {m : String × Value} (hm : m ∈ members) : fieldOf? members m.1 = some (some m.2) := by
  have hfilter : members.filter (·.1 == m.1) = [m] := by
    induction members with
    | nil => cases hm
    | cons m' ms ih =>
      obtain ⟨hnew, hnodup⟩ := List.nodup_cons.mp hnodup
      rcases List.mem_cons.mp hm with rfl | hm
      · have hnone : ms.filter (·.1 == m.1) = [] := by
          refine List.filter_eq_nil_iff.mpr fun m' hm' heq => hnew ?_
          rw [← beq_iff_eq.mp heq]
          exact List.mem_map_of_mem hm'
        simp [hnone]
      · have hne : m'.1 ≠ m.1 := fun heq => hnew (heq ▸ List.mem_map_of_mem hm)
        simp [hne, ih hnodup hm]
  rw [fieldOf?, hfilter]

/-- A record without repeated names has all of its fields, and nothing else. -/
theorem fields?_record {fields : List (String × Value)} (hnodup : (fields.map Prod.fst).Nodup)
    (unknown : Unknown) :
    (record fields).fields? (fields.map Prod.fst) unknown = some (fields.map (some ·.2)) := by
  simp only [record, fields?, List.mapM_map, Function.comp_def]
  rw [mapM_eq_some_map (g := id) fun m _ => by exact rfl, List.map_id, Option.bind_eq_bind,
    Option.bind_some, if_neg]
  · exact mapM_eq_some_map fun m hm => fieldOf?_eq hnodup hm
  · -- Every name of a member is one of the names that are asked for.
    intro hunknown
    obtain ⟨m, hm, hmissing⟩ := List.any_eq_true.mp (Bool.and_eq_true_iff.mp hunknown).2
    have hname : m.1 ∈ fields.map Prod.fst := List.mem_map_of_mem hm
    simp [hname] at hmissing

theorem allFields?_record {fields : List (String × Value)}
    (hnodup : (fields.map Prod.fst).Nodup) :
    (record fields).allFields? (fields.map Prod.fst) = some (fields.map Prod.snd) := by
  rw [allFields?, fields?_record hnodup, Option.bind_eq_bind, Option.bind_some, List.mapM_map]
  exact mapM_eq_some_map fun _ _ => rfl

end Dcpu16.Json.Value
