import Mathlib.Data.List.DropRight
import CallTrace.Path

/-!
# Paths under paths

What the test for a path below a directory comes to, and why the normal form of a path
is one.

* `isUnder_trans`, `isUnder_or`: on all texts, being under a directory is transitive,
  and of two directories with a path in common one is under the other.  Slashes at
  the end of a directory do not matter for this (`isUnder_iff`), so neither
  needs a normal form.
* `normalParts_append`: the components of a normal form are read back from it, since none
  is empty or holds a slash (`IsPart`).
* `IsNormal`: the absolute paths that are their own normal form.  `absolute_isNormal`: what a path
  stands for in a directory is one, and `IsNormal.absolute_eq`: a directory
  makes no difference to it.
-/

namespace CallTrace.Path

/-! ## Slashes at the end -/

theorem dropSlashes_eq_rdropWhile (path : List Char) :
    dropSlashes path = path.rdropWhile (· = '/') := rfl

theorem dropSlashes_append_slashes (path : List Char) :
    ∃ n, path = dropSlashes path ++ List.replicate n '/' := by
  have hdrop : dropSlashes path ++ path.rtakeWhile (· = '/') = path := by
    simp only [dropSlashes, List.rtakeWhile, ← List.reverse_append,
      List.takeWhile_append_dropWhile, List.reverse_reverse]
  refine ⟨_, hdrop.symm.trans (congrArg _ (List.eq_replicate_iff.mpr ⟨rfl, fun c hc => ?_⟩))⟩
  simpa using List.mem_rtakeWhile_imp hc

theorem dropSlashes_isPrefix (path : List Char) : dropSlashes path <+: path := by
  rw [dropSlashes_eq_rdropWhile]
  exact List.rdropWhile_prefix _ path

theorem getLast_dropSlashes (path : List Char) (h : dropSlashes path ≠ []) :
    (dropSlashes path).getLast h ≠ '/' := by
  simpa only [dropSlashes_eq_rdropWhile, decide_eq_true_eq] using
    List.rdropWhile_last_not (· = '/') path h

/-- A text without a slash at its end that goes on to another by slashes only is that text. -/
theorem dropSlashes_eq_of_append {path : List Char} {shorter : List Char} {n : ℕ}
    (h : dropSlashes path = shorter ++ List.replicate n '/') : dropSlashes path = shorter := by
  cases n with
  | zero => simpa using h
  | succ n =>
    have hne : dropSlashes path ≠ [] := by simp [h]
    refine absurd ?_ (getLast_dropSlashes path hne)
    simp [h]

/-! ## Under a directory -/

theorem isUnder_iff {path directory : List Char} :
    isUnder path directory = true ↔
      path = directory ∨ dropSlashes directory ++ ['/'] <+: path := by
  simp [isUnder]

/-- A directory that is under another without being it goes on from the other's slash
before its own slashes at the end, or differs from it in these only. -/
theorem prefix_dropSlashes {outer inner : List Char}
    (h : dropSlashes outer ++ ['/'] <+: inner) :
    dropSlashes outer ++ ['/'] <+: dropSlashes inner ∨ dropSlashes outer = dropSlashes inner := by
  obtain ⟨n, hinner⟩ := dropSlashes_append_slashes inner
  rw [hinner] at h
  rcases List.prefix_or_prefix_of_prefix h (List.prefix_append _ _) with hle | hle
  · exact Or.inl hle
  right
  -- the inner path's slashes reach past the outer one's slash
  have hshort : dropSlashes inner <+: dropSlashes outer := by
    rcases List.prefix_concat_iff.mp hle with heq | hle
    · have hne : dropSlashes inner ≠ [] := by simp [heq]
      exact absurd (by simp [heq]) (getLast_dropSlashes inner hne)
    · exact hle
  obtain ⟨gap, hgap⟩ := hshort
  have hgap' : gap ++ ['/'] <+: List.replicate n '/' := by
    rw [← hgap, List.append_assoc] at h
    exact (List.prefix_append_right_inj _).mp h
  have hslashes : gap = List.replicate gap.length '/' :=
    List.eq_replicate_iff.mpr ⟨rfl, fun c hc =>
      List.eq_of_mem_replicate (hgap'.subset (List.mem_append_left _ hc))⟩
  exact dropSlashes_eq_of_append (hgap.symm.trans (congrArg _ hslashes))

theorem isUnder_trans {path inner outer : List Char} (hpath : isUnder path inner = true)
    (hinner : isUnder inner outer = true) : isUnder path outer = true := by
  rw [isUnder_iff] at hpath hinner ⊢
  rcases hpath with rfl | hpath
  · exact hinner
  rcases hinner with rfl | hinner
  · exact Or.inr hpath
  right
  rcases prefix_dropSlashes hinner with hle | heq
  · exact (hle.trans (List.prefix_append _ _)).trans hpath
  · rwa [heq]

theorem isUnder_of_isPrefix {path other : List Char}
    (h : dropSlashes path ++ ['/'] <+: dropSlashes other ++ ['/']) :
    isUnder other path = true ∨ isUnder path other = true := by
  simp only [isUnder_iff]
  rcases List.prefix_concat_iff.mp h with heq | hle
  · -- the two differ in the number of slashes at the end only
    have heq : dropSlashes path = dropSlashes other := by simpa using heq
    obtain ⟨n, hpath⟩ := dropSlashes_append_slashes path
    obtain ⟨m, hother⟩ := dropSlashes_append_slashes other
    rcases Nat.eq_zero_or_pos m with rfl | hm
    · rcases Nat.eq_zero_or_pos n with rfl | hn
      · exact Or.inl (Or.inl (by rw [hother, hpath, heq]))
      · refine Or.inr (Or.inr ?_)
        obtain ⟨n, rfl⟩ := Nat.exists_eq_add_of_lt hn
        rw [hpath, heq]
        simp [List.replicate_succ]
    · refine Or.inl (Or.inr ?_)
      obtain ⟨m, rfl⟩ := Nat.exists_eq_add_of_lt hm
      rw [hother, heq]
      simp [List.replicate_succ]
  · exact Or.inl (Or.inr (hle.trans (dropSlashes_isPrefix other)))

/-- Of two directories that a path is under one is under the other. -/
theorem isUnder_or {path directory other : List Char} (h : isUnder path directory = true)
    (hother : isUnder path other = true) :
    isUnder directory other = true ∨ isUnder other directory = true := by
  rcases isUnder_iff.mp h with rfl | hle
  · exact Or.inl hother
  rcases isUnder_iff.mp hother with rfl | hle'
  · exact Or.inr h
  rcases List.prefix_or_prefix_of_prefix hle hle' with hle | hle
  · exact (isUnder_of_isPrefix hle).symm
  · exact isUnder_of_isPrefix hle

/-! ## Components -/

/-- A component of a path in normal form. -/
structure IsPart (part : List Char) : Prop where
  ne_nil : part ≠ []
  ne_dot : part ≠ ['.']
  ne_dots : part ≠ ['.', '.']
  noSlash : '/' ∉ part

theorem split_ne_nil (path : List Char) : split path ≠ [] := by
  cases path with
  | nil => simp [split]
  | cons c rest =>
    simp only [split]
    split_ifs
    · simp
    · split <;> simp

theorem noSlash_of_mem_split {path part : List Char} (h : part ∈ split path) : '/' ∉ part := by
  induction path generalizing part with
  | nil => simp_all [split]
  | cons c rest ih =>
    by_cases hc : c = '/'
    · rcases List.mem_cons.mp (by simpa [split, hc] using h) with rfl | hmem
      · simp
      · exact ih hmem
    · obtain ⟨first, parts, hsplit⟩ := List.exists_cons_of_ne_nil (split_ne_nil rest)
      simp only [split, hc, if_false, hsplit, List.mem_cons] at h
      rcases h with rfl | hmem
      · have := ih (by rw [hsplit]; exact List.mem_cons_self)
        simp [this, Ne.symm hc]
      · exact ih (by rw [hsplit]; exact List.mem_cons_of_mem _ hmem)

theorem split_of_noSlash {part : List Char} (h : '/' ∉ part) : split part = [part] := by
  induction part with
  | nil => rfl
  | cons c rest ih =>
    obtain ⟨hc, hrest⟩ := List.ne_and_not_mem_of_not_mem_cons h
    simp [split, ih hrest, hc.symm]

theorem split_append_slash {part : List Char} (rest : List Char) (h : '/' ∉ part) :
    split (part ++ '/' :: rest) = part :: split rest := by
  induction part with
  | nil => simp [split]
  | cons c part ih =>
    obtain ⟨hc, hrest⟩ := List.ne_and_not_mem_of_not_mem_cons h
    simp [split, ih hrest, hc.symm]

theorem split_joinParts : ∀ {parts : List (List Char)}, parts ≠ [] →
    (∀ part ∈ parts, '/' ∉ part) → split (joinParts parts) = parts
  | [], h, _ => absurd rfl h
  | [part], _, h => split_of_noSlash (h part List.mem_cons_self)
  | part :: next :: parts, _, h => by
    rw [joinParts.eq_3 _ _ (by simp), split_append_slash _ (h part List.mem_cons_self),
      split_joinParts (by simp) fun p hp => h p (List.mem_cons_of_mem _ hp)]

/-- Adding components keeps those that can stand in a normal form. -/
theorem isPart_of_mem_foldl {parts : List (List Char)} : ∀ {before : List (List Char)},
    (∀ part ∈ parts, '/' ∉ part) → (∀ part ∈ before, IsPart part) →
      ∀ part ∈ parts.foldl addPart before, IsPart part := by
  induction parts with
  | nil => exact fun _ h => h
  | cons first parts ih =>
    intro before hslash hbefore
    refine ih (fun p hp => hslash p (List.mem_cons_of_mem _ hp)) fun part hpart => ?_
    have hfirst := hslash first List.mem_cons_self
    unfold addPart at hpart
    split_ifs at hpart with hskip hup
    · exact hbefore part hpart
    · exact hbefore part (List.mem_of_mem_tail hpart)
    · rcases List.mem_cons.mp hpart with rfl | hmem
      · simp only [List.isEmpty_iff, decide_eq_true_eq, Bool.or_eq_true, not_or] at hskip
        exact ⟨hskip.1, hskip.2, by simpa using hup, hfirst⟩
      · exact hbefore part hmem

theorem isPart_of_mem_normalParts {path part : List Char} (h : part ∈ normalParts path) :
    IsPart part :=
  isPart_of_mem_foldl (fun _ => noSlash_of_mem_split) (by simp) part (List.mem_reverse.mp h)

theorem addPart_of_isPart {part : List Char} (h : IsPart part) (before : List (List Char)) :
    addPart before part = part :: before := by
  simp [addPart, h.ne_nil, h.ne_dot, h.ne_dots]

theorem foldl_addPart {parts : List (List Char)} (h : ∀ part ∈ parts, IsPart part)
    (before : List (List Char)) : parts.foldl addPart before = parts.reverse ++ before := by
  induction parts generalizing before with
  | nil => rfl
  | cons part parts ih =>
    rw [List.foldl_cons, addPart_of_isPart (h part List.mem_cons_self),
      ih fun p hp => h p (List.mem_cons_of_mem _ hp)]
    simp

/-- Components that stand in a normal form are the ones that are read from it. -/
theorem foldl_split_joinParts {parts : List (List Char)} (h : ∀ part ∈ parts, IsPart part) :
    (split (joinParts parts)).foldl addPart [] = parts.reverse := by
  rcases eq_or_ne parts [] with rfl | hne
  · rfl
  · rw [split_joinParts hne fun p hp => (h p hp).noSlash, foldl_addPart h, List.append_nil]

/-! ## The normal form -/

/-- An absolute path that is its own normal form. -/
structure IsNormal (path : List Char) : Prop where
  isAbsolute : isAbsolute path = true
  normalize_eq : normalize path = path

theorem root_eq_of_isAbsolute {path : List Char} (h : isAbsolute path = true) :
    root path = ['/'] ∨ root path = ['/', '/'] := by
  obtain ⟨rest, rfl⟩ : ∃ rest, path = '/' :: rest := by
    simpa [isAbsolute, List.head?_eq_some_iff] using h
  unfold root
  split <;> simp_all

theorem joinParts_ne_slash {parts : List (List Char)} (h : ∀ part ∈ parts, IsPart part)
    (rest : List Char) : joinParts parts ≠ '/' :: rest := by
  match parts with
  | [] => simp [joinParts]
  | [] :: _ => exact absurd rfl (h [] List.mem_cons_self).ne_nil
  | [c :: part] =>
    have hc := (List.ne_and_not_mem_of_not_mem_cons (h _ List.mem_cons_self).noSlash).1
    simp [joinParts, hc.symm]
  | (c :: part) :: next :: parts =>
    have hc := (List.ne_and_not_mem_of_not_mem_cons (h _ List.mem_cons_self).noSlash).1
    simp [joinParts, hc.symm]

theorem root_append {path : List Char} {parts : List (List Char)} (habs : isAbsolute path = true)
    (h : ∀ part ∈ parts, IsPart part) : root (root path ++ joinParts parts) = root path := by
  have hslash := joinParts_ne_slash h
  rcases root_eq_of_isAbsolute habs with heq | heq <;> rw [heq] <;>
    cases hjoin : joinParts parts with
    | nil => rfl
    | cons c rest =>
      have hc : c ≠ '/' := fun hc => hslash rest (by rw [hjoin, hc])
      simp [root, hc]

theorem normalParts_append {path : List Char} {parts : List (List Char)}
    (habs : isAbsolute path = true) (h : ∀ part ∈ parts, IsPart part) :
    normalParts (root path ++ joinParts parts) = parts := by
  rcases root_eq_of_isAbsolute habs with heq | heq <;>
    simp [heq, normalParts, split, addPart, foldl_split_joinParts h]

theorem isAbsolute_normalize {path : List Char} (h : isAbsolute path = true) :
    isAbsolute (normalize path) = true := by
  unfold normalize
  rcases root_eq_of_isAbsolute h with heq | heq <;> simp [heq, isAbsolute]

theorem normalize_normalize {path : List Char} (h : isAbsolute path = true) :
    normalize (normalize path) = normalize path := by
  have hparts : ∀ part ∈ normalParts path, IsPart part := fun _ => isPart_of_mem_normalParts
  rw [normalize, normalize, root_append h hparts, normalParts_append h hparts]

theorem isAbsolute_join {directory : List Char} (h : isAbsolute directory = true)
    (path : List Char) : isAbsolute (join directory path) = true := by
  have hne : directory ≠ [] := by rintro rfl; simp [isAbsolute] at h
  unfold join
  split_ifs with hpath
  · exact hpath
  · simpa [isAbsolute, List.head?_append_of_ne_nil _ hne] using h
  · simpa [isAbsolute, List.head?_append_of_ne_nil _ hne] using h

theorem absolute_isNormal {directory : List Char} (h : isAbsolute directory = true)
    (path : List Char) : IsNormal (absolute directory path) :=
  ⟨isAbsolute_normalize (isAbsolute_join h path), normalize_normalize (isAbsolute_join h path)⟩

theorem IsNormal.absolute_eq {path : List Char} (h : IsNormal path) (directory : List Char) :
    absolute directory path = path := by
  rw [absolute, join, if_pos h.isAbsolute, h.normalize_eq]

theorem IsNormal.ne_nil {path : List Char} (h : IsNormal path) : path ≠ [] := by
  rintro rfl
  simpa [Path.isAbsolute] using h.isAbsolute

end CallTrace.Path
