import CallTrace.Proofs.Roots

/-!
# Components of paths

A plain path (`IsPlain`) is in normal form and begins with a single slash.  It is a list
of components written down (`ofParts`), which `components` reads back.

* `isUnder_ofParts`: one plain path is under another exactly if the components of the other are a
  prefix of its own.  The test looks for the directory with a slash after it, so it finds
  whole components only: two lists, with a slash after each component, begin alike as texts exactly
  if they begin alike as lists (`slashed_isPrefix`).
* `parent_ofParts`: the directory of a plain path lacks its last component.  So siblings have as
  many components, and nothing begins with the components of both (`not_isUnder_of_isSibling`).
* `isUnder_components`: being under a directory is an order on plain paths, with the root on top.
* `Scope.covers_iff_components`: the roots of a scope are compared with files by components.
-/

namespace CallTrace

namespace Path

/-- The components of a path: what stands between its slashes, where that is something. -/
def components (path : List Char) : List (List Char) :=
  (split path).filter (· ≠ [])

/-- An absolute path in normal form that begins with a single slash. -/
structure IsPlain (path : List Char) : Prop extends IsNormal path where
  root_eq : root path = ['/']

/-- The absolute path with the given components. -/
def ofParts (parts : List (List Char)) : List Char := '/' :: joinParts parts

/-- Components with a slash after each. -/
def slashed (parts : List (List Char)) : List Char := parts.flatMap (· ++ ['/'])

@[simp] theorem slashed_nil : slashed [] = [] := rfl

@[simp] theorem slashed_cons (part : List Char) (parts : List (List Char)) :
    slashed (part :: parts) = part ++ '/' :: slashed parts := by
  simp [slashed]

@[simp] theorem slashed_append (parts more : List (List Char)) :
    slashed (parts ++ more) = slashed parts ++ slashed more := by
  simp [slashed]

/-! ## Plain paths and their components -/

theorem ofParts_concat (parts : List (List Char)) (name : List Char) :
    ofParts (parts ++ [name]) = '/' :: slashed parts ++ name := by
  unfold ofParts
  induction parts with
  | nil => rfl
  | cons part parts ih =>
    have htail : joinParts (parts ++ [name]) = slashed parts ++ name := by simpa using ih
    rw [List.cons_append, joinParts.eq_3 _ _ (by simp), htail]
    simp

theorem root_ofParts {parts : List (List Char)} (h : ∀ part ∈ parts, IsPart part) :
    root (ofParts parts) = ['/'] :=
  @root_append ['/'] parts rfl h

theorem isPlain_ofParts {parts : List (List Char)} (h : ∀ part ∈ parts, IsPart part) :
    IsPlain (ofParts parts) where
  isAbsolute := by simp [isAbsolute, ofParts]
  normalize_eq := by
    have hparts : normalParts (ofParts parts) = parts := @normalParts_append ['/'] parts rfl h
    rw [normalize, root_ofParts h, hparts]
    rfl
  root_eq := root_ofParts h

theorem components_ofParts {parts : List (List Char)} (h : ∀ part ∈ parts, IsPart part) :
    components (ofParts parts) = parts := by
  rcases eq_or_ne parts [] with rfl | hne
  · rfl
  · have hsplit : split (ofParts parts) = [] :: parts := by
      simp [ofParts, split, split_joinParts hne fun part hpart => (h part hpart).noSlash]
    rw [components, hsplit, List.filter_cons_of_neg (by simp), List.filter_eq_self]
    exact fun part hpart => by simpa using (h part hpart).ne_nil

/-- A plain path is the one with the components of its normal form. -/
theorem IsPlain.exists_parts {path : List Char} (h : IsPlain path) :
    ∃ parts, (∀ part ∈ parts, IsPart part) ∧ path = ofParts parts := by
  refine ⟨normalParts path, fun _ => isPart_of_mem_normalParts, ?_⟩
  calc path = normalize path := h.normalize_eq.symm
    _ = ['/'] ++ joinParts (normalParts path) := by rw [normalize, h.root_eq]

theorem IsPlain.ofParts_components {path : List Char} (h : IsPlain path) :
    ofParts (components path) = path := by
  obtain ⟨parts, hparts, rfl⟩ := h.exists_parts
  rw [components_ofParts hparts]

theorem absolute_isPlain_iff {directory path : List Char} (h : isAbsolute directory = true) :
    IsPlain (absolute directory path) ↔ root (join directory path) = ['/'] := by
  have hroot : root (absolute directory path) = root (join directory path) :=
    root_append (isAbsolute_join h path) fun _ => isPart_of_mem_normalParts
  exact ⟨fun hplain => hroot.symm.trans hplain.root_eq,
    fun heq => ⟨absolute_isNormal h path, hroot.trans heq⟩⟩

/-! ## Under a directory -/

theorem dropSlashes_append_part (front : List Char) {name : List Char} (h : IsPart name) :
    dropSlashes (front ++ name) = front ++ name := by
  rw [dropSlashes_eq_rdropWhile, List.rdropWhile_eq_self_iff]
  intro _ hlast
  rw [List.getLast_append_of_ne_nil _ h.ne_nil, decide_eq_true_eq] at hlast
  exact h.noSlash (hlast ▸ List.getLast_mem h.ne_nil)

/-- What the test looks for, of a plain path: a slash, and each component with a slash after it. -/
theorem dropSlashes_ofParts {parts : List (List Char)} (h : ∀ part ∈ parts, IsPart part) :
    dropSlashes (ofParts parts) ++ ['/'] = '/' :: slashed parts := by
  rcases List.eq_nil_or_concat' parts with rfl | ⟨front, name, rfl⟩
  · rfl
  · rw [ofParts_concat, dropSlashes_append_part _ (h name (by simp))]
    simp

/-- Texts without a slash that are followed by one begin alike only if they are the same. -/
theorem append_slash_isPrefix {part other rest more : List Char} (hpart : '/' ∉ part)
    (hother : '/' ∉ other) :
    part ++ '/' :: rest <+: other ++ '/' :: more ↔ part = other ∧ rest <+: more := by
  induction part generalizing other with
  | nil =>
    cases other with
    | nil => simp
    | cons c other =>
      have hc : '/' ≠ c := (List.ne_and_not_mem_of_not_mem_cons hother).1
      simp [hc]
  | cons c part ih =>
    obtain ⟨hc, hpart⟩ := List.ne_and_not_mem_of_not_mem_cons hpart
    cases other with
    | nil => simp [hc.symm]
    | cons d other =>
      obtain ⟨-, hother⟩ := List.ne_and_not_mem_of_not_mem_cons hother
      simp [ih hpart hother, and_assoc]

theorem slashed_isPrefix {parts more : List (List Char)} (hparts : ∀ part ∈ parts, '/' ∉ part)
    (hmore : ∀ part ∈ more, '/' ∉ part) : slashed parts <+: slashed more ↔ parts <+: more := by
  induction parts generalizing more with
  | nil => simp
  | cons part parts ih =>
    cases more with
    | nil => simp
    | cons other more =>
      rw [List.forall_mem_cons] at hparts hmore
      rw [slashed_cons, slashed_cons, append_slash_isPrefix hparts.1 hmore.1, ih hparts.2 hmore.2,
        List.cons_prefix_cons]

/-- A path under a directory begins with it also when there is a slash after both. -/
theorem dropSlashes_isPrefix_of_isUnder {path directory : List Char}
    (h : isUnder path directory = true) :
    dropSlashes directory ++ ['/'] <+: dropSlashes path ++ ['/'] := by
  rcases isUnder_iff.mp h with rfl | hle
  · exact List.prefix_rfl
  · rcases prefix_dropSlashes hle with hle | heq
    · exact hle.trans (List.prefix_append _ _)
    · exact heq ▸ List.prefix_rfl

theorem isUnder_ofParts_append {parts : List (List Char)} (h : ∀ part ∈ parts, IsPart part)
    (more : List (List Char)) : isUnder (ofParts (parts ++ more)) (ofParts parts) = true := by
  rcases List.eq_nil_or_concat' more with rfl | ⟨front, name, rfl⟩
  · rw [List.append_nil]
    exact isUnder_self _
  · rw [isUnder_iff, dropSlashes_ofParts h, ← List.append_assoc, ofParts_concat, slashed_append]
    exact Or.inr ⟨slashed front ++ name, by simp⟩

theorem isUnder_ofParts {parts directory : List (List Char)} (hparts : ∀ part ∈ parts, IsPart part)
    (hdirectory : ∀ part ∈ directory, IsPart part) :
    isUnder (ofParts parts) (ofParts directory) = true ↔ directory <+: parts := by
  constructor
  · intro h
    have hle := dropSlashes_isPrefix_of_isUnder h
    rw [dropSlashes_ofParts hparts, dropSlashes_ofParts hdirectory, List.cons_prefix_cons] at hle
    exact (slashed_isPrefix (fun part hpart => (hdirectory part hpart).noSlash)
      fun part hpart => (hparts part hpart).noSlash).mp hle.2
  · rintro ⟨more, rfl⟩
    exact isUnder_ofParts_append hdirectory more

theorem IsPlain.isUnder_iff {path directory : List Char} (hpath : IsPlain path)
    (hdirectory : IsPlain directory) :
    isUnder path directory = true ↔ components directory <+: components path := by
  obtain ⟨parts, hparts, rfl⟩ := hpath.exists_parts
  obtain ⟨outer, houter, rfl⟩ := hdirectory.exists_parts
  rw [isUnder_ofParts hparts houter, components_ofParts hparts, components_ofParts houter]

theorem IsPlain.isUnder_antisymm {path directory : List Char} (hpath : IsPlain path)
    (hdirectory : IsPlain directory) (h : isUnder path directory = true)
    (h' : isUnder directory path = true) : path = directory := by
  have hle := (hpath.isUnder_iff hdirectory).mp h
  have hge := (hdirectory.isUnder_iff hpath).mp h'
  rw [← hpath.ofParts_components, ← hdirectory.ofParts_components,
    hge.eq_of_length (hge.length_le.antisymm hle.length_le)]

/-- A path of two slashes is in normal form, too, but it and the root are under one another. -/
example : IsNormal ['/', '/'] ∧ isUnder ['/', '/'] ['/'] = true ∧ isUnder ['/'] ['/', '/'] = true :=
  ⟨⟨rfl, by decide⟩, by decide, by decide⟩

/-! ## Siblings -/

/-- Two paths other than the root that lie in the same directory. -/
structure IsSibling (path other : List Char) : Prop where
  ne : path ≠ other
  left_ne_root : path ≠ ['/']
  right_ne_root : other ≠ ['/']
  parent_eq : parent path = parent other

theorem parent_append_slash {front name : List Char} (h : '/' ∉ name) :
    parent (front ++ '/' :: name) =
      if front.all (· = '/') then front ++ ['/'] else dropSlashes front := by
  have hhead : ((front ++ '/' :: name).reverse.dropWhile (· != '/')).reverse = front ++ ['/'] := by
    have hname : ∀ c ∈ name.reverse, (c != '/') = true := by
      intro c hc
      simpa using fun heq : c = '/' => h (heq ▸ List.mem_reverse.mp hc)
    rw [List.reverse_append, List.reverse_cons, List.append_assoc,
      List.dropWhile_append_of_pos hname]
    simp
  have hdrop : dropSlashes (front ++ ['/']) = dropSlashes front := by simp [dropSlashes]
  simp only [parent, hhead, hdrop, List.all_append]
  simp

theorem parent_ofParts {parts : List (List Char)} {name : List Char}
    (h : ∀ part ∈ parts ++ [name], IsPart part) :
    parent (ofParts (parts ++ [name])) = ofParts parts := by
  have hname := (h name (by simp)).noSlash
  rcases List.eq_nil_or_concat' parts with rfl | ⟨front, last, rfl⟩
  · exact @parent_append_slash [] name hname
  · have hlast := h last (by simp)
    have htext :
        ofParts (front ++ [last] ++ [name]) = ofParts (front ++ [last]) ++ '/' :: name := by
      rw [ofParts_concat, ofParts_concat]
      simp
    have hlast' : ¬ (ofParts (front ++ [last])).all (· = '/') := by
      obtain ⟨c, rest, rfl⟩ := List.exists_cons_of_ne_nil hlast.ne_nil
      have hc : '/' ≠ c := (List.ne_and_not_mem_of_not_mem_cons hlast.noSlash).1
      simp [ofParts_concat, hc.symm]
    rw [htext, parent_append_slash hname, if_neg hlast', ofParts_concat,
      dropSlashes_append_part _ hlast]

theorem components_parent {path : List Char} (h : IsPlain path) :
    components (parent path) = (components path).dropLast := by
  obtain ⟨parts, hparts, rfl⟩ := h.exists_parts
  rcases List.eq_nil_or_concat' parts with rfl | ⟨front, name, rfl⟩
  · rfl
  · have hfront : ∀ part ∈ front, IsPart part :=
      fun part hpart => hparts part (List.mem_append_left _ hpart)
    rw [parent_ofParts hparts, components_ofParts hparts, components_ofParts hfront,
      List.dropLast_concat]

theorem IsPlain.components_ne_nil {path : List Char} (h : IsPlain path) (hne : path ≠ ['/']) :
    components path ≠ [] := by
  intro hnil
  rw [← h.ofParts_components, hnil] at hne
  exact hne rfl

/-- What is at or below a path is not at or below its siblings. -/
theorem not_isUnder_of_isSibling {path directory other : List Char} (hpath : IsPlain path)
    (hdirectory : IsPlain directory) (hother : IsPlain other) (h : IsSibling other directory)
    (hunder : isUnder path other = true) : isUnder path directory = false := by
  rw [← Bool.not_eq_true]
  intro hunder'
  have hlength : (components other).length = (components directory).length := by
    have hdrop := congrArg (fun p => (components p).length) h.parent_eq
    simp only [components_parent hother, components_parent hdirectory,
      List.length_dropLast] at hdrop
    have hpos := List.length_pos_iff.mpr (hother.components_ne_nil h.left_ne_root)
    have hpos' := List.length_pos_iff.mpr (hdirectory.components_ne_nil h.right_ne_root)
    omega
  -- beginnings of one list that are as long are the same
  have heq : components other = components directory := by
    have hle := (hpath.isUnder_iff hother).mp hunder
    have hle' := (hpath.isUnder_iff hdirectory).mp hunder'
    exact (List.prefix_of_prefix_length_le hle hle' hlength.le).eq_of_length hlength
  refine h.ne ?_
  rw [← hother.ofParts_components, heq, hdirectory.ofParts_components]

/-! ## The order of plain paths -/

/-- On plain paths, to be under a directory is to begin with its components.  So it is an order with
the root on top, and nothing is under two siblings, however alike their names begin. -/
theorem isUnder_components {path directory other : List Char} (hpath : IsPlain path)
    (hdirectory : IsPlain directory) (hother : IsPlain other) :
    (isUnder path directory = true ↔ components directory <+: components path) ∧
    isUnder path path = true ∧
    (isUnder path other = true → isUnder other directory = true →
      isUnder path directory = true) ∧
    (isUnder path directory = true → isUnder directory path = true → path = directory) ∧
    (IsSibling other directory → isUnder path other = true → isUnder path directory = false) ∧
    isUnder path ['/'] = true := by
  have hroot : IsPlain ['/'] := @isPlain_ofParts [] (by simp)
  have htop : isUnder path ['/'] = true := (hpath.isUnder_iff hroot).mpr List.nil_prefix
  exact ⟨hpath.isUnder_iff hdirectory, isUnder_self path, isUnder_trans,
    hpath.isUnder_antisymm hdirectory, not_isUnder_of_isSibling hpath hdirectory hother, htop⟩

/-- A file below `srcs` is below the directory of that, and not below its sibling `src`. -/
theorem isUnder_components_srcs :
    IsPlain "/srv/srcs/mod.py".toList ∧ IsPlain "/srv/src".toList ∧ IsPlain "/srv/srcs".toList ∧
    IsPlain "/srv".toList ∧ IsPlain (absolute ['/'] "srv/src/..".toList) ∧
    IsSibling "/srv/srcs".toList "/srv/src".toList ∧
    isUnder "/srv/srcs/mod.py".toList "/srv/srcs".toList = true ∧
    isUnder "/srv/srcs/mod.py".toList "/srv/src".toList = false ∧
    isUnder "/srv/srcs/mod.py".toList "/srv".toList = true ∧
    absolute ['/'] "srv/src/..".toList = "/srv".toList ∧
    isUnder "/srv/srcs/mod.py".toList ['/'] = true := by
  have hfile : IsPlain "/srv/srcs/mod.py".toList := ⟨⟨rfl, by decide⟩, rfl⟩
  have hsrc : IsPlain "/srv/src".toList := ⟨⟨rfl, by decide⟩, rfl⟩
  have hsrcs : IsPlain "/srv/srcs".toList := ⟨⟨rfl, by decide⟩, rfl⟩
  have hsrv : IsPlain "/srv".toList := ⟨⟨rfl, by decide⟩, rfl⟩
  have hup : IsPlain (absolute ['/'] "srv/src/..".toList) := (absolute_isPlain_iff rfl).mpr rfl
  have hsibling : IsSibling "/srv/srcs".toList "/srv/src".toList :=
    ⟨by decide, by decide, by decide, by decide⟩
  obtain ⟨hbelow, -⟩ := isUnder_components hfile hsrcs hsrcs
  obtain ⟨-, -, -, -, hbeside, htop⟩ := isUnder_components hfile hsrc hsrcs
  obtain ⟨-, -, htrans, -⟩ := isUnder_components hfile hsrv hsrcs
  obtain ⟨-, -, -, hantisymm, -⟩ := isUnder_components hup hsrv hsrv
  have hunder := hbelow.mpr (by decide)
  exact ⟨hfile, hsrc, hsrcs, hsrv, hup, hsibling, hunder, hbeside hsibling hunder,
    htrans hunder (by decide), hantisymm (by decide) (by decide), htop⟩

end Path

namespace Scope

/-- The roots of a scope are compared with a file component by component. -/
theorem covers_iff_components {home directory origin : List Char} {library : Library}
    {roots : List (List Char)} (hhome : Path.isAbsolute home = true)
    (hdirectory : Path.isAbsolute directory = true) (hroots : roots ≠ []) (horigin : origin ≠ [])
    (hplain : ∀ root ∈ roots, Path.root (Path.join home root) = ['/'])
    (hplain' : Path.root (Path.join directory origin) = ['/']) :
    (ofRoots home library (some roots)).covers directory (some origin) = true ↔
      ∃ root ∈ roots, Path.components (Path.absolute home root) <+:
        Path.components (Path.absolute directory origin) := by
  rw [covers_ofRoots hroots horigin]
  refine exists_congr fun root => and_congr_right fun hroot => ?_
  exact ((Path.absolute_isPlain_iff hdirectory).mpr hplain').isUnder_iff
    ((Path.absolute_isPlain_iff hhome).mpr (hplain root hroot))

end Scope

end CallTrace
