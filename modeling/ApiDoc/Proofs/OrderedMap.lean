import Mathlib.Data.List.Induction
import Mathlib.Data.List.Nodup
import Mathlib.Algebra.Ring.Nat
import ApiDoc.OrderedMap

/-!
# Maps that are filled entry by entry

A map that is filled by putting entries one after the other has each of their names once, in the
order in which the names first come up (`OrderedMap.names_ofEntries`), and under a name the value
that was put there last (`OrderedMap.find?_ofEntries`).
-/

namespace ApiDoc.OrderedMap

section
variable {α β : Type} {m : OrderedMap α} {name : Text} {value a : α}

/-- The names of a map, in order. -/
def names (m : OrderedMap α) : List Text :=
  m.map (·.1)

/-- The map of some entries that are put one after the other. -/
def ofEntries (entries : List (Text × α)) : OrderedMap α :=
  entries.foldl (fun m entry => put entry.1 entry.2 m) []

/-! ## Looking up -/

theorem find?_put (name key : Text) (value : α) (m : OrderedMap α) :
    find? key (m.put name value) = if key = name then some value else find? key m := by
  induction m with
  | nil => simp only [put, find?, eq_comm]
  | cons entry m ih =>
    obtain ⟨first, old⟩ := entry
    simp only [put]
    split
    · next hfirst =>
      subst hfirst
      simp only [find?, eq_comm]
      split <;> rfl
    · next hfirst =>
      simp only [find?]
      split
      · next hkey =>
        subst hkey
        rw [if_neg hfirst]
      · exact ih

theorem find?_map (f : Text × α → α) (key : Text) (m : OrderedMap α) :
    find? key (m.map fun entry => (entry.1, f entry)) =
      (find? key m).map fun value => f (key, value) := by
  induction m with
  | nil => rfl
  | cons entry m ih =>
    obtain ⟨first, value⟩ := entry
    simp only [List.map_cons, find?]
    split
    · next hkey => rw [hkey, Option.map_some]
    · exact ih

theorem mem_values_of_find? (h : m.find? name = some value) : value ∈ m.values := by
  induction m with
  | nil => cases h
  | cons entry m ih =>
    unfold find? at h
    split at h
    · cases h
      exact List.mem_cons_self
    · exact List.mem_cons_of_mem _ (ih h)

/-- An entry of a map after a value was put is the new one or was there before. -/
theorem mem_put {entry : Text × α} (h : entry ∈ m.put name value) :
    entry = (name, value) ∨ entry ∈ m := by
  induction m with
  | nil => exact .inl (List.mem_singleton.1 h)
  | cons first m ih =>
    unfold put at h
    split at h
    · next hname =>
      rcases List.mem_cons.1 h with rfl | h
      · exact .inl (Prod.ext hname rfl)
      · exact .inr (List.mem_cons_of_mem _ h)
    · rcases List.mem_cons.1 h with rfl | h
      · exact .inr List.mem_cons_self
      · exact (ih h).imp_right (List.mem_cons_of_mem _)

theorem mem_values_put (h : a ∈ (m.put name value).values) : a = value ∨ a ∈ m.values := by
  obtain ⟨entry, hentry, rfl⟩ := List.mem_map.1 h
  rcases mem_put hentry with rfl | hentry
  · exact .inl rfl
  · exact .inr (List.mem_map_of_mem hentry)

/-- The values weigh more by the one that is put, and less by the one that it replaces. -/
theorem sum_values_put (weight : α → Nat) (name : Text) (value : α) (m : OrderedMap α) :
    ((m.put name value).values.map weight).sum + ((m.find? name).map weight).getD 0 =
      (m.values.map weight).sum + weight value := by
  induction m with
  | nil => simp [put, find?, values]
  | cons entry m ih =>
    obtain ⟨first, old⟩ := entry
    simp only [values, put, find?] at ih ⊢
    split
    · simp only [List.map_cons, List.sum_cons, Option.map_some, Option.getD_some]
      omega
    · simp only [List.map_cons, List.sum_cons]
      omega

theorem mapValues_put (f : α → β) (name : Text) (value : α) (m : OrderedMap α) :
    mapValues f (m.put name value) = (mapValues f m).put name (f value) := by
  induction m with
  | nil => rfl
  | cons entry m ih =>
    obtain ⟨first, old⟩ := entry
    simp only [put, mapValues, List.map_cons]
    split
    · rfl
    · exact congrArg (_ :: ·) ih

/-! ## Names -/

/-- A name that is put stays where it is, or comes to the end. -/
theorem names_put (name : Text) (value : α) (m : OrderedMap α) :
    (m.put name value).names = if name ∈ m.names then m.names else m.names ++ [name] := by
  induction m with
  | nil => rfl
  | cons entry m ih =>
    obtain ⟨first, old⟩ := entry
    simp only [put]
    by_cases hname : first = name
    · subst hname
      rw [if_pos rfl]
      exact (if_pos List.mem_cons_self).symm
    · rw [if_neg hname]
      change first :: names (put name value m) = if name ∈ first :: names m then _ else _
      rw [ih]
      simp only [List.mem_cons, Ne.symm hname, false_or]
      split <;> rfl

theorem put_of_not_mem (h : name ∉ m.names) : m.put name value = m ++ [(name, value)] := by
  induction m with
  | nil => rfl
  | cons entry m ih =>
    obtain ⟨hne, hrest⟩ := not_or.1 (mt List.mem_cons.2 h)
    simp only [put]
    rw [if_neg (Ne.symm hne), ih hrest]
    rfl

theorem nodup_names_put (h : m.names.Nodup) : (m.put name value).names.Nodup := by
  rw [names_put]
  split
  · exact h
  · next hmem => exact List.nodup_append'.2 ⟨h, List.nodup_singleton _,
      List.disjoint_singleton.2 hmem⟩

/-- Where every name comes once, the values are what is found under the names. -/
theorem values_eq_filterMap (h : m.names.Nodup) :
    m.values = m.names.filterMap fun name => m.find? name := by
  induction m with
  | nil => rfl
  | cons entry m ih =>
    obtain ⟨first, value⟩ := entry
    obtain ⟨hfirst, hrest⟩ := List.nodup_cons.1 h
    have hfind : find? first ((first, value) :: m) = some value := if_pos rfl
    change value :: values m =
      (first :: names m).filterMap fun name => find? name ((first, value) :: m)
    rw [List.filterMap_cons_some (f := fun name => find? name ((first, value) :: m)) hfind,
      ih hrest]
    refine congrArg (value :: ·) (List.filterMap_congr fun name hname => ?_)
    exact (if_neg fun heq : first = name => hfirst (heq ▸ hname)).symm

/-! ## Entries that are put one after the other -/

theorem ofEntries_concat (entries : List (Text × α)) (entry : Text × α) :
    ofEntries (entries ++ [entry]) = (ofEntries entries).put entry.1 entry.2 :=
  List.foldl_append

/-- Every name comes once, where it first came up. -/
theorem names_ofEntries (entries : List (Text × α)) :
    (ofEntries entries).names = (entries.map (·.1)).eraseDups := by
  induction entries using List.reverseRecOn with
  | nil => rfl
  | append_singleton entries entry ih =>
    rw [ofEntries_concat, names_put, ih, List.map_append, List.eraseDups_append]
    simp only [List.mem_eraseDups, List.map_cons, List.map_nil, List.cons_removeAll,
      List.contains_eq_mem, decide_eq_false_iff_not]
    by_cases hmem : entry.1 ∈ entries.map (·.1)
    · rw [if_pos hmem, if_neg (not_not_intro hmem)]
      exact (List.append_nil _).symm
    · rw [if_neg hmem, if_pos hmem]
      rfl

/-- Under a name is what was put there last. -/
theorem find?_ofEntries (name : Text) (entries : List (Text × α)) :
    (ofEntries entries).find? name =
      (entries.reverse.find? fun entry => entry.1 = name).map (·.2) := by
  induction entries using List.reverseRecOn with
  | nil => rfl
  | append_singleton entries entry ih =>
    rw [ofEntries_concat, find?_put, ih, List.reverse_append]
    by_cases hname : name = entry.1
    · subst hname
      simp
    · simp [hname, Ne.symm hname]

/-- A name that was put leads to one of the values that were put under it. -/
theorem exists_find?_ofEntries {entries : List (Text × α)} (h : name ∈ entries.map (·.1)) :
    ∃ value, (ofEntries entries).find? name = some value ∧ (name, value) ∈ entries := by
  obtain ⟨entry, hmem, hname⟩ := List.mem_map.1 h
  have hsome : (entries.reverse.find? fun entry => entry.1 = name).isSome :=
    List.find?_isSome.2 ⟨entry, List.mem_reverse.2 hmem, decide_eq_true hname⟩
  obtain ⟨⟨last, value⟩, hlast⟩ := Option.isSome_iff_exists.1 hsome
  have hname : last = name := by simpa using List.find?_some hlast
  subst hname
  refine ⟨value, ?_, List.mem_reverse.1 (List.mem_of_find?_eq_some hlast)⟩
  rw [find?_ofEntries, hlast, Option.map_some]

theorem nodup_names_ofEntries (entries : List (Text × α)) : (ofEntries entries).names.Nodup := by
  induction entries using List.reverseRecOn with
  | nil => exact List.nodup_nil
  | append_singleton entries entry ih =>
    rw [ofEntries_concat]
    exact nodup_names_put ih

theorem mapValues_ofEntries (f : α → β) (entries : List (Text × α)) :
    mapValues f (ofEntries entries) = ofEntries (mapValues f entries) := by
  induction entries using List.reverseRecOn with
  | nil => rfl
  | append_singleton entries entry ih =>
    rw [ofEntries_concat, mapValues_put, ih, ← ofEntries_concat _ (entry.1, f entry.2)]
    have hmap : mapValues f (entries ++ [entry]) = mapValues f entries ++ [(entry.1, f entry.2)] :=
      List.map_append
    rw [hmap]

/-- Entries of distinct names are put at the end each time. -/
theorem ofEntries_of_nodup {entries : List (Text × α)} (h : (entries.map (·.1)).Nodup) :
    ofEntries entries = entries := by
  induction entries using List.reverseRecOn with
  | nil => rfl
  | append_singleton entries entry ih =>
    rw [List.map_append] at h
    obtain ⟨hentries, -, hdisjoint⟩ := List.nodup_append'.1 h
    rw [ofEntries_concat, ih hentries]
    exact put_of_not_mem (List.disjoint_singleton.1 hdisjoint)

/-! ## What is left of things that are put under their names -/

variable {as : List α} {key : α → Text}

/-- Of some things, those that come last with their names, each in the place where its name first
comes up. -/
def lastOfEach (key : α → Text) (as : List α) : List α :=
  (as.map key).eraseDups.filterMap fun name => as.reverse.find? fun a => key a = name

/-- The map of some things under their names has the last one of each name. -/
theorem values_ofEntries (key : α → Text) (as : List α) :
    (ofEntries (as.map fun a => (key a, a))).values = lastOfEach key as := by
  rw [values_eq_filterMap (nodup_names_ofEntries _), names_ofEntries, List.map_map, lastOfEach]
  refine List.filterMap_congr fun name _ => ?_
  rw [find?_ofEntries, ← List.map_reverse, List.find?_map, Option.map_map]
  exact Option.map_id'

/-- The same for what is made of the things. -/
theorem values_ofEntries_map (f : α → β) :
    (ofEntries (as.map fun a => (key a, f a))).values = (lastOfEach key as).map f := by
  rw [← values_ofEntries, values, values, List.map_map]
  have hmap := mapValues_ofEntries f (as.map fun a => (key a, a))
  rw [mapValues, mapValues, List.map_map] at hmap
  exact (congrArg values hmap).symm.trans (List.map_map)

/-- Things of distinct names are all left. -/
theorem lastOfEach_of_nodup (h : (as.map key).Nodup) : lastOfEach key as = as := by
  rw [← values_ofEntries, ofEntries_of_nodup (by rwa [List.map_map]), values, List.map_map]
  exact List.map_id' as

theorem sum_lastOfEach_concat (weight : α → Nat) (key : α → Text) (as : List α) (a : α) :
    ((lastOfEach key (as ++ [a])).map weight).sum +
        (((ofEntries (as.map fun a => (key a, a))).find? (key a)).map weight).getD 0 =
      ((lastOfEach key as).map weight).sum + weight a := by
  rw [← values_ofEntries, ← values_ofEntries, List.map_append, List.map_singleton, ofEntries_concat]
  exact sum_values_put weight _ _ _

/-- What is left weighs no more than all. -/
theorem sum_lastOfEach_le (weight : α → Nat) (key : α → Text) (as : List α) :
    ((lastOfEach key as).map weight).sum ≤ (as.map weight).sum := by
  induction as using List.reverseRecOn with
  | nil => exact Nat.le_refl _
  | append_singleton as a ih =>
    have hconcat := sum_lastOfEach_concat weight key as a
    rw [List.map_append, List.sum_append, List.map_singleton, List.sum_singleton]
    omega

/-- If all that has a weight is left, the names are distinct. -/
theorem nodup_of_sum_lastOfEach (weight : α → Nat) (hweight : ∀ a ∈ as, 0 < weight a)
    (h : (as.map weight).sum ≤ ((lastOfEach key as).map weight).sum) : (as.map key).Nodup := by
  induction as using List.reverseRecOn with
  | nil => exact List.nodup_nil
  | append_singleton as a ih =>
    have hconcat := sum_lastOfEach_concat weight key as a
    have hle := sum_lastOfEach_le weight key as
    rw [List.map_append, List.sum_append, List.map_singleton, List.sum_singleton] at h
    have hbefore : (as.map key).Nodup :=
      ih (fun b hb => hweight b (List.mem_append_left _ hb)) (by omega)
    rw [List.map_append, List.map_singleton]
    refine List.nodup_append'.2 ⟨hbefore, List.nodup_singleton _,
      List.disjoint_singleton.2 fun hmem => ?_⟩
    -- an earlier one of the same name would be lost, with its weight
    have hput : key a ∈ (as.map fun a => (key a, a)).map (·.1) := by rwa [List.map_map]
    obtain ⟨b, hfind, hb⟩ := exists_find?_ofEntries hput
    obtain ⟨c, hc, heq⟩ := List.mem_map.1 hb
    obtain ⟨-, rfl⟩ := Prod.mk.inj heq
    have hpositive := hweight _ (List.mem_append_left _ hc)
    rw [hfind, Option.map_some, Option.getD_some] at hconcat
    omega

theorem length_lastOfEach_le (key : α → Text) (as : List α) :
    (lastOfEach key as).length ≤ as.length := by
  simpa using sum_lastOfEach_le (fun _ => 1) key as

/-- If all things are left, their names are distinct. -/
theorem nodup_of_length_lastOfEach (h : as.length ≤ (lastOfEach key as).length) :
    (as.map key).Nodup :=
  nodup_of_sum_lastOfEach (fun _ => 1) (fun _ _ => Nat.one_pos) (by simpa using h)

end

end ApiDoc.OrderedMap
