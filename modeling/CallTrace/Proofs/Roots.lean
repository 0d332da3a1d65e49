import CallTrace.Scope
import CallTrace.Proofs.Paths

/-!
# Roots and the scope without them

A scope with roots asks one thing only of a file: that it lies at or below a root
(`covers_ofRoots`).  So the more roots the more files (`covers_ofRoots_mono`), but the
standard library is not looked at any more.

`covers_ofRoots_narrow`: the roots take files out of the scope without roots, and put none in, for
every file at once, exactly if each root stands apart from the standard library (`Library.IsApart`):
where a root and a directory of the standard library are one under the other, the inner one is among
the installed packages.  Directories are laminar (`Path.isUnder_or`), so there is nothing else
that a root and the standard library can have in common.

`covers_root_standard`: a root in the standard library puts its files in scope, and an empty list
of roots is no restriction.
-/

namespace CallTrace

/-- A root below which no file of the standard library lies, those of installed packages apart. -/
def Library.IsApart (library : Library) (root : List Char) : Prop :=
  ∀ standard ∈ library.standard,
    (Path.isUnder root standard = true →
      ∃ packages ∈ library.packages, Path.isUnder root packages = true) ∧
    (Path.isUnder standard root = true →
      ∃ packages ∈ library.packages, Path.isUnder standard packages = true)

instance (library : Library) (root : List Char) : Decidable (library.IsApart root) :=
  inferInstanceAs (Decidable (∀ standard ∈ library.standard,
    (Path.isUnder root standard = true →
      ∃ packages ∈ library.packages, Path.isUnder root packages = true) ∧
    (Path.isUnder standard root = true →
      ∃ packages ∈ library.packages, Path.isUnder standard packages = true)))

namespace Scope

variable {home directory : List Char} {library : Library} {roots : List (List Char)}

/-- Whether a file lies at or below one of the roots, which are read from a directory. -/
def IsBelow (home : List Char) (roots : List (List Char)) (path : List Char) : Prop :=
  ∃ root ∈ roots, Path.isUnder path (Path.absolute home root) = true

theorem IsBelow.mono {path : List Char} {more : List (List Char)} (h : roots ⊆ more) :
    IsBelow home roots path → IsBelow home more path :=
  fun ⟨root, hroot, hunder⟩ => ⟨root, h hroot, hunder⟩

theorem covers_some {s : Scope} {origin : List Char} (h : origin ≠ []) :
    s.covers directory (some origin) = s.coversAbsolute (Path.absolute directory origin) := by
  cases origin with
  | nil => exact absurd rfl h
  | cons c origin => rfl

theorem ofRoots_some (h : roots ≠ []) :
    ofRoots home library (some roots) = ⟨some (roots.map (Path.absolute home)), library⟩ := by
  cases roots with
  | nil => exact absurd rfl h
  | cons root roots => rfl

theorem coversAbsolute_ofRoots (h : roots ≠ []) (path : List Char) :
    (ofRoots home library (some roots)).coversAbsolute path = true ↔ IsBelow home roots path := by
  simp [ofRoots_some h, coversAbsolute, IsBelow]

theorem coversAbsolute_ofRoots_none (path : List Char) :
    (ofRoots home library none).coversAbsolute path = true ↔
      ∀ standard ∈ library.standard, Path.isUnder path standard = true →
        ∃ packages ∈ library.packages, Path.isUnder path packages = true := by
  simp only [ofRoots, coversAbsolute, Bool.or_eq_true, Bool.not_eq_true', List.any_eq_false,
    List.any_eq_true]
  by_cases hpackages : ∃ packages ∈ library.packages, Path.isUnder path packages = true
  · simp only [hpackages, or_true, implies_true]
  · simp only [hpackages, or_false, imp_false]

theorem covers_ofRoots (h : roots ≠ []) {origin : List Char} (horigin : origin ≠ []) :
    (ofRoots home library (some roots)).covers directory (some origin) = true ↔
      IsBelow home roots (Path.absolute directory origin) := by
  rw [covers_some horigin, coversAbsolute_ofRoots h]

theorem covers_ofRoots_mono (h : roots ≠ []) {more : List (List Char)} (hmore : roots ⊆ more)
    (origin : Option (List Char))
    (hcovers : (ofRoots home library (some roots)).covers directory origin = true) :
    (ofRoots home library (some more)).covers directory origin = true := by
  match origin with
  | none | some [] => simp [covers] at hcovers
  | some (c :: origin) =>
    have hmore' : more ≠ [] := List.ne_nil_of_mem (hmore (List.head_mem h))
    rw [covers_ofRoots h (List.cons_ne_nil c origin)] at hcovers
    rw [covers_ofRoots hmore' (List.cons_ne_nil c origin)]
    exact hcovers.mono hmore

/-- What lies below a root that is apart from the standard library is in scope without roots, too. -/
theorem coversAbsolute_of_isApart {root path : List Char} (h : library.IsApart root)
    (hpath : Path.isUnder path root = true) :
    (ofRoots home library none).coversAbsolute path = true := by
  rw [coversAbsolute_ofRoots_none]
  intro standard hmem hstandard
  obtain ⟨hinside, haround⟩ := h standard hmem
  rcases Path.isUnder_or hpath hstandard with hunder | hunder
  · obtain ⟨packages, hpackages, hroot⟩ := hinside hunder
    exact ⟨packages, hpackages, Path.isUnder_trans hpath hroot⟩
  · obtain ⟨packages, hpackages, hroot⟩ := haround hunder
    exact ⟨packages, hpackages, Path.isUnder_trans hstandard hroot⟩

variable (home) in
/-- If all that lies below a root is in scope without roots, the root is apart: the root itself and
the directories of the standard library below it say so. -/
theorem isApart_of_coversAbsolute {root : List Char}
    (hlibrary : ∀ standard ∈ library.standard, Path.IsNormal standard) (hroot : Path.IsNormal root)
    (h : ∀ path, Path.IsNormal path → Path.isUnder path root = true →
      (ofRoots home library none).coversAbsolute path = true) : library.IsApart root := by
  refine fun standard hmem => ⟨fun hunder => ?_, fun hunder => ?_⟩
  · have hcovers := h root hroot (Path.isUnder_self root)
    exact (coversAbsolute_ofRoots_none root).mp hcovers standard hmem hunder
  · have hcovers := h standard (hlibrary standard hmem) hunder
    exact (coversAbsolute_ofRoots_none standard).mp hcovers standard hmem
      (Path.isUnder_self standard)

/-- Some roots narrow the scope without roots exactly if each of them is apart from the standard library. -/
theorem narrow_iff_isApart (hhome : Path.isAbsolute home = true)
    (hlibrary : ∀ standard ∈ library.standard, Path.IsNormal standard) (hroots : roots ≠ []) :
    (∀ origin, origin ≠ [] →
      ((ofRoots home library (some roots)).covers directory (some origin) = true ↔
        IsBelow home roots (Path.absolute directory origin) ∧
          (ofRoots home library none).covers directory (some origin) = true)) ↔
      ∀ root ∈ roots, library.IsApart (Path.absolute home root) := by
  constructor
  · intro h root hroot
    refine isApart_of_coversAbsolute home hlibrary (Path.absolute_isNormal hhome root)
      fun path hpath hunder => ?_
    -- a path in normal form stands for itself, wherever it is read
    have hcovers := h path hpath.ne_nil
    rw [covers_ofRoots hroots hpath.ne_nil, covers_some hpath.ne_nil,
      hpath.absolute_eq] at hcovers
    exact (hcovers.mp ⟨root, hroot, hunder⟩).2
  · intro h origin horigin
    rw [covers_ofRoots hroots horigin, covers_some horigin]
    refine ⟨fun hbelow => ⟨hbelow, ?_⟩, And.left⟩
    obtain ⟨root, hroot, hunder⟩ := hbelow
    exact coversAbsolute_of_isApart (h root hroot) hunder

/-- An empty list of roots narrows the scope without roots only if there is nothing in that. -/
theorem narrow_nil_iff :
    (∀ origin, origin ≠ [] →
      ((ofRoots home library (some [])).covers directory (some origin) = true ↔
        IsBelow home [] (Path.absolute directory origin) ∧
          (ofRoots home library none).covers directory (some origin) = true)) ↔
      ∀ origin, (ofRoots home library none).covers directory origin = false := by
  have hbelow (path : List Char) : ¬ IsBelow home [] path := by simp [IsBelow]
  simp only [hbelow, false_and, iff_false, Bool.not_eq_true]
  refine ⟨fun h origin => ?_, fun h origin _ => h (some origin)⟩
  match origin with
  | none | some [] => rfl
  | some (c :: origin) => exact h (c :: origin) (List.cons_ne_nil c origin)

/-- When the files in scope are those below a root that are in scope without roots, for all files at
once: if there are roots, and each is apart from the standard library, or if there is nothing in
scope.  Whatever the roots, as long as there are some, more roots never cover less. -/
theorem covers_ofRoots_narrow (hhome : Path.isAbsolute home = true)
    (hlibrary : ∀ standard ∈ library.standard, Path.IsNormal standard) :
    ((∀ origin, origin ≠ [] →
      ((ofRoots home library (some roots)).covers directory (some origin) = true ↔
        IsBelow home roots (Path.absolute directory origin) ∧
          (ofRoots home library none).covers directory (some origin) = true)) ↔
      if roots = [] then ∀ origin, (ofRoots home library none).covers directory origin = false
      else ∀ root ∈ roots, library.IsApart (Path.absolute home root)) ∧
    ∀ more, roots ≠ [] → roots ⊆ more → ∀ origin,
      (ofRoots home library (some roots)).covers directory origin = true →
        (ofRoots home library (some more)).covers directory origin = true := by
  refine ⟨?_, fun more hroots hmore => covers_ofRoots_mono hroots hmore⟩
  split_ifs with hroots
  · subst hroots
    exact narrow_nil_iff
  · exact narrow_iff_isApart hhome hlibrary hroots

/-- A standard library with a directory of installed packages inside. -/
def nested : Library :=
  ⟨["/lib/py".toList], ["/lib/py/site-packages".toList]⟩

/-- A directory of one's own and an installed package. -/
def ownRoots : List (List Char) :=
  ["app".toList, "../lib/py/site-packages/x".toList]

theorem isNormal_nested : ∀ standard ∈ nested.standard, Path.IsNormal standard := by
  intro standard hmem
  obtain rfl := List.mem_singleton.mp hmem
  exact ⟨rfl, by decide⟩

theorem covers_ofRoots_narrow_nested :
    (∀ standard ∈ nested.standard, Path.IsNormal standard) ∧
    (∀ root ∈ ownRoots, nested.IsApart (Path.absolute "/srv".toList root)) ∧
    (∀ origin, origin ≠ [] →
      ((ofRoots "/srv".toList nested (some ownRoots)).covers ['/'] (some origin) = true ↔
        IsBelow "/srv".toList ownRoots (Path.absolute ['/'] origin) ∧
          (ofRoots "/srv".toList nested none).covers ['/'] (some origin) = true)) ∧
    (ofRoots "/srv".toList nested (some ownRoots)).covers ['/'] (some "/srv/app/m.py".toList) =
      true ∧
    (ofRoots "/srv".toList nested (some ("lib".toList :: ownRoots))).covers ['/']
      (some "/srv/app/m.py".toList) = true := by
  have hapart : ∀ root ∈ ownRoots, nested.IsApart (Path.absolute "/srv".toList root) := by decide
  obtain ⟨hiff, hmono⟩ :=
    @covers_ofRoots_narrow "/srv".toList ['/'] nested ownRoots rfl isNormal_nested
  have hcovers : (ofRoots "/srv".toList nested (some ownRoots)).covers ['/']
      (some "/srv/app/m.py".toList) = true := by decide
  exact ⟨isNormal_nested, hapart, hiff.mpr (by simpa [ownRoots] using hapart), hcovers,
    hmono _ (by simp [ownRoots]) (List.subset_cons_self _ _) _ hcovers⟩

/-- A root in the standard library puts its files in scope, and an empty list of roots leaves
all files there. -/
theorem covers_root_standard :
    (ofRoots ['/'] nested (some ["/lib".toList])).covers ['/'] (some "/lib/py/os.py".toList) =
      true ∧
    (ofRoots ['/'] nested none).covers ['/'] (some "/lib/py/os.py".toList) = false ∧
    (ofRoots ['/'] nested (some [])).covers ['/'] (some "/x.py".toList) = true ∧
    ¬ IsBelow ['/'] [] (Path.absolute ['/'] "/x.py".toList) :=
  ⟨by decide, by decide, by decide, by simp [IsBelow]⟩

end Scope

end CallTrace
