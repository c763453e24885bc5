import NomoApi.Lib.Text

/-! # Texts joined by a separator

A list of texts is written as one text, with a separator between them, and read back by trimming and
splitting. What is read back is the list that was written only for some lists. -/

namespace NomoApi

open List

/-- **Texts joined by a separator.** -/
def join (parts : List String) (sep : Char) : String :=
  String.ofList ([sep].intercalate (parts.map String.toList))

/-! ### Lists of characters -/

theorem splitChars_eq_splitOn (sep : Char) (cs : List Char) :
    splitChars sep cs = cs.splitOn sep := by
  induction cs with
  | nil => rfl
  | cons c cs ih =>
    have hne : cs.splitOn sep ≠ [] := splitOnP_ne_nil _ cs
    rw [splitChars, splitOn, splitOnP_cons_eq_if_modifyHead, ih]
    split
    · rename_i hc
      rw [if_pos (beq_iff_eq.mpr hc)]
      rfl
    · rename_i hc
      rw [if_neg fun h => hc (beq_iff_eq.mp h)]
      obtain ⟨part, parts, hparts⟩ := exists_cons_of_ne_nil hne
      have hparts' : splitOnP (fun c => c == sep) cs = part :: parts := hparts
      rw [hparts, hparts']
      rfl

theorem sep_notMem_of_mem_splitChars {sep : Char} {cs part : List Char}
    (h : part ∈ splitChars sep cs) : sep ∉ part := by
  induction cs generalizing part with
  | nil =>
    rw [splitChars, mem_singleton] at h
    rw [h]
    exact not_mem_nil
  | cons c cs ih =>
    rw [splitChars] at h
    split at h
    · rw [mem_cons] at h
      rcases h with rfl | h
      · exact not_mem_nil
      · exact ih h
    · rename_i hc
      obtain ⟨first, rest, hparts⟩ := exists_cons_of_ne_nil (splitChars_ne_nil sep cs)
      rw [hparts] at h ih
      rcases mem_cons.mp h with rfl | h
      · rw [mem_cons, not_or]
        exact ⟨fun heq => hc heq.symm, ih mem_cons_self⟩
      · exact ih (mem_cons_of_mem _ h)

/-! ### Texts -/

theorem join_singleton (part : String) (sep : Char) : join [part] sep = part := by
  rw [join, map_singleton, intercalate_singleton, String.ofList_toList]

theorem toList_join_cons_cons (part next : String) (parts : List String) (sep : Char) :
    (join (part :: next :: parts) sep).toList =
      part.toList ++ sep :: (join (next :: parts) sep).toList := by
  simp [join, intercalate_cons_cons]

variable {sep : Char} {parts : List String}

theorem join_cons_eq_empty {part : String}
    (h : join (part :: parts) sep = "") : part = "" ∧ parts = [] := by
  cases parts with
  | nil => exact ⟨by rwa [join_singleton] at h, rfl⟩
  | cons next parts =>
    have hlist := congrArg String.toList h
    rw [toList_join_cons_cons] at hlist
    exact absurd hlist (by simp)

theorem head?_join_iff (hne : join parts sep ≠ "") (hno : ∀ part ∈ parts, sep ∉ part.toList) :
    (join parts sep).toList.head? = some sep ↔ parts.head? = some "" := by
  match parts with
  | [] => exact absurd rfl hne
  | [part] =>
    rw [join_singleton] at hne ⊢
    have hpart := hno part mem_cons_self
    refine iff_of_false (fun h => hpart (mem_of_mem_head? h)) ?_
    simpa using hne
  | part :: next :: parts =>
    have hpart := hno part mem_cons_self
    rw [toList_join_cons_cons, head?_cons, Option.some.injEq, ← String.toList_eq_nil_iff]
    cases htext : part.toList with
    | nil => simp
    | cons c cs =>
      rw [htext] at hpart
      have hc : c ≠ sep := fun h => hpart (h ▸ mem_cons_self ..)
      simp [hc]

theorem getLast?_join_iff {parts : List String} (hne : join parts sep ≠ "")
    (hno : ∀ part ∈ parts, sep ∉ part.toList) :
    (join parts sep).toList.getLast? = some sep ↔ parts.getLast? = some "" := by
  match parts with
  | [] => exact absurd rfl hne
  | [part] =>
    rw [join_singleton] at hne ⊢
    have hpart := hno part mem_cons_self
    refine iff_of_false (fun h => hpart (mem_of_mem_getLast? h)) ?_
    simpa using hne
  | part :: next :: parts =>
    rw [toList_join_cons_cons, getLast?_append_of_ne_nil _ (cons_ne_nil _ _), getLast?_cons_cons]
    by_cases hrest : join (next :: parts) sep = ""
    · -- the rest is empty only if it is one empty part
      obtain ⟨rfl, rfl⟩ := join_cons_eq_empty hrest
      simp [hrest]
    · rw [← getLast?_join_iff hrest fun p hp => hno p (mem_cons_of_mem _ hp),
        getLast?_cons_of_ne_nil fun h => hrest (String.toList_eq_nil_iff.mp h)]

theorem join_split (s : String) (sep : Char) : join (split s sep) sep = s := by
  rw [join, split, map_map, ← String.toList_inj, String.toList_ofList]
  simp [splitChars_eq_splitOn]

theorem split_join (hne : parts ≠ [])
    (hno : ∀ part ∈ parts, sep ∉ part.toList) : split (join parts sep) sep = parts := by
  have hparts : ∀ part ∈ parts.map String.toList, sep ∉ part := forall_mem_map.mpr hno
  rw [split, join, String.toList_ofList, splitChars_eq_splitOn,
    splitOn_intercalate sep hparts (by simpa using hne), map_map]
  simp

theorem trimOf_eq_self_iff {c : Char} {s : String} :
    trimOf c s = s ↔ s.toList.head? ≠ some c ∧ s.toList.getLast? ≠ some c := by
  have hstart : s.toList.dropWhile (· = c) = s.toList ↔ s.toList.head? ≠ some c := by
    cases s.toList with
    | nil => simp
    | cons d ds => simp [dropWhile_eq_self_iff]
  have hend : s.toList.rdropWhile (· = c) = s.toList ↔ s.toList.getLast? ≠ some c := by
    rw [rdropWhile_eq_self_iff]
    by_cases hne : s.toList = []
    · rw [hne]
      simp
    · rw [getLast?_eq_some_getLast hne]
      simp [hne]
  rw [← hstart, ← hend, ← String.toList_inj, trimOf, String.toList_ofList]
  constructor
  · intro h
    -- neither step may remove a character
    have hpre := rdropWhile_prefix (· = c) (s.toList.dropWhile (· = c))
    have hsuf : s.toList.dropWhile (· = c) <:+ s.toList := dropWhile_suffix _
    have hlen := hpre.length_le
    rw [h] at hlen
    have hdrop := hsuf.eq_of_length (Nat.le_antisymm hsuf.length_le hlen)
    rw [hdrop] at h
    exact ⟨hdrop, h⟩
  · rintro ⟨hs, he⟩
    rw [hs, he]

/-- **Joined texts are read back** iff no text has the separator in it and neither the first nor the
last one is empty. -/
theorem split_trimOf_join_iff (hne : join parts sep ≠ "") :
    split (trimOf sep (join parts sep)) sep = parts ↔
      (∀ part ∈ parts, sep ∉ part.toList) ∧ parts.head? ≠ some "" ∧ parts.getLast? ≠ some "" := by
  have htrim (hno : ∀ part ∈ parts, sep ∉ part.toList) :
      trimOf sep (join parts sep) = join parts sep ↔
        parts.head? ≠ some "" ∧ parts.getLast? ≠ some "" := by
    rw [trimOf_eq_self_iff, ne_eq, head?_join_iff hne hno, ne_eq, getLast?_join_iff hne hno]
  constructor
  · intro h
    have hno : ∀ part ∈ parts, sep ∉ part.toList := by
      intro part hpart
      rw [← h, split] at hpart
      obtain ⟨cs, hcs, rfl⟩ := mem_map.mp hpart
      rw [String.toList_ofList]
      exact sep_notMem_of_mem_splitChars hcs
    have hback := join_split (trimOf sep (join parts sep)) sep
    rw [h] at hback
    exact ⟨hno, (htrim hno).mp hback.symm⟩
  · rintro ⟨hno, hends⟩
    rw [(htrim hno).mpr hends]
    exact split_join (fun h => hne (by rw [h]; rfl)) hno

end NomoApi
