import Hack.Path

/-!
The file name of a path.

A path whose last piece counts names a file, by that piece (`splitLast?_of_pieces`). The name splits
at its last dot, if something stands before that, into a stem and an extension, and a name put
together from the two splits there again (`splitName_append`). So another extension changes the last
piece alone: the path still leads through the same pieces, to a name with the same stem
(`toList_withExtension`). The one exception is the stem of a single dot, whose name with an empty
extension is the step back; this path leads back instead (`toList_withExtension_dot`).
-/

namespace Hack.Path

/-! ## Pieces -/

theorem piecesFrom_append {piece front : List Char} (inside : '/' ∉ front) (rest : List Char) :
    piecesFrom piece (front ++ rest) = piecesFrom (front.reverse ++ piece) rest := by
  induction front generalizing piece with
  | nil => rfl
  | cons c front ih =>
    have other : c ≠ '/' := fun same => inside (same ▸ List.mem_cons_self)
    rw [List.cons_append, piecesFrom, if_neg other,
      ih fun member => inside (List.mem_cons_of_mem c member)]
    simp only [List.reverse_cons, List.append_assoc, List.cons_append, List.nil_append]

/-- Pieces without slashes are found again in the path that they make. -/
theorem pieces_join {list : List (List Char)} (some : list ≠ [])
    (inside : ∀ piece ∈ list, '/' ∉ piece) : pieces (join list) = list := by
  induction list with
  | nil => exact absurd rfl some
  | cons piece rest ih =>
    have here : '/' ∉ piece := inside piece List.mem_cons_self
    cases rest with
    | nil =>
      rw [join, pieces, ← List.append_nil piece, piecesFrom_append here, piecesFrom]
      simp only [List.append_nil, List.reverse_reverse]
    | cons next rest =>
      rw [join, pieces, piecesFrom_append here, piecesFrom, if_pos rfl, List.append_nil,
        List.reverse_reverse]
      · exact congrArg (piece :: ·)
          (ih (List.cons_ne_nil next rest) fun other member => inside other (.tail piece member))
      · exact List.cons_ne_nil next rest

theorem not_mem_of_mem_piecesFrom {piece path found : List Char} (inside : '/' ∉ piece)
    (member : found ∈ piecesFrom piece path) : '/' ∉ found := by
  induction path generalizing piece with
  | nil =>
    rw [piecesFrom, List.mem_singleton] at member
    rw [member, List.mem_reverse]
    exact inside
  | cons c rest ih =>
    rw [piecesFrom] at member
    split at member
    · rcases List.mem_cons.1 member with rfl | member
      · rwa [List.mem_reverse]
      · exact ih List.not_mem_nil member
    · next other =>
      refine ih (fun found => ?_) member
      rcases List.mem_cons.1 found with same | found
      · exact other same.symm
      · exact inside found

/-- No piece holds a slash. -/
theorem not_mem_of_mem_pieces {path piece : List Char} (member : piece ∈ pieces path) :
    '/' ∉ piece :=
  not_mem_of_mem_piecesFrom List.not_mem_nil member

/-- Characters at the end of the last piece are characters at the end of the path. -/
theorem join_concat_append (before : List (List Char)) (name tail : List Char) :
    join (before ++ [name ++ tail]) = join (before ++ [name]) ++ tail := by
  induction before with
  | nil => rfl
  | cons piece before ih =>
    cases before with
    | nil => simp only [List.cons_append, List.nil_append, join, List.append_assoc]
    | cons next before =>
      simp only [List.cons_append, join, List.append_assoc] at ih ⊢
      rw [ih]

/-- A path starts with a slash exactly if its first piece is empty and not the only one. -/
theorem head?_join_concat {before : List (List Char)} {name : List Char}
    (inside : ∀ piece ∈ before ++ [name], '/' ∉ piece) :
    (join (before ++ [name])).head? = some '/' ↔ before.head? = some [] := by
  have first {c : Char} {piece : List Char} (member : c :: piece ∈ before ++ [name]) : c ≠ '/' :=
    fun slash => inside _ member (slash ▸ List.mem_cons_self)
  cases before with
  | nil =>
    cases name with
    | nil => simp [join]
    | cons c name => simp [join, first (List.mem_singleton_self _)]
  | cons piece before =>
    have more : before ++ [name] ≠ [] :=
      List.append_ne_nil_of_right_ne_nil before (List.cons_ne_nil name [])
    rw [List.cons_append, join]
    · cases piece with
      | nil => simp
      | cons c piece => simp [first List.mem_cons_self]
    · exact more

/-! ## File names -/

theorem splitLast?_of_pieces {path name : List Char} {before : List (List Char)}
    (split : pieces path = before ++ [name]) (counts : isIdle name = false) :
    splitLast? path = if name = ['.', '.'] then none else some (name, before.reverse) := by
  rw [splitLast?, split, List.reverse_concat, List.dropWhile_cons_of_neg (by simp [counts])]

/-- A stem and an extension are found again in the name that they make. -/
theorem splitName_append {stem extension : List Char} (some : stem ≠ [])
    (inside : '.' ∉ extension) :
    splitName (stem ++ '.' :: extension) = (stem, Option.some extension) := by
  have passed : ∀ c ∈ extension.reverse, (c != '.') = true := by
    intro c member
    rw [bne_iff_ne]
    rintro rfl
    exact inside (List.mem_reverse.1 member)
  have back : (stem ++ '.' :: extension).reverse = extension.reverse ++ '.' :: stem.reverse := by
    simp only [List.reverse_append, List.reverse_cons, List.append_assoc, List.singleton_append]
  have rest : (extension.reverse ++ '.' :: stem.reverse).dropWhile (· != '.') =
      '.' :: stem.reverse := by
    rw [List.dropWhile_append_of_pos passed, List.dropWhile_cons_of_neg (by simp)]
  have front : (extension.reverse ++ '.' :: stem.reverse).takeWhile (· != '.') =
      extension.reverse := by
    rw [List.takeWhile_append_of_pos passed, List.takeWhile_cons_of_neg (by simp), List.append_nil]
  rw [splitName, back, rest, front]
  cases last : stem.reverse with
  | nil => exact absurd (List.reverse_eq_nil_iff.1 last) some
  | cons c before =>
    have whole : (c :: before).reverse = stem := by rw [← last, List.reverse_reverse]
    simp only [whole, List.reverse_reverse]

/-- A name splits at its last dot, or it has no extension. -/
theorem splitName_cases (name : List Char) :
    (∃ stem extension, stem ≠ [] ∧ '.' ∉ extension ∧ name = stem ++ '.' :: extension ∧
      splitName name = (stem, some extension)) ∨
    splitName name = (name, none) := by
  cases rest : name.reverse.dropWhile (· != '.') with
  | nil =>
    refine Or.inr ?_
    rw [splitName, rest]
  | cons dot back =>
    have stops : dot = '.' := by
      have head := List.head?_dropWhile_not (· != '.') name.reverse
      rw [rest] at head
      simpa using head
    subst stops
    cases back with
    | nil =>
      refine Or.inr ?_
      rw [splitName, rest]
      rfl
    | cons c back =>
      obtain ⟨extension, front⟩ : ∃ extension, name.reverse.takeWhile (· != '.') = extension :=
        ⟨_, rfl⟩
      have whole : extension ++ '.' :: c :: back = name.reverse := by
        rw [← front, ← rest, List.takeWhile_append_dropWhile]
      have parts : name = (c :: back).reverse ++ '.' :: extension.reverse := by
        rw [← List.reverse_reverse name, ← whole]
        simp only [List.reverse_append, List.reverse_cons, List.append_assoc,
          List.cons_append, List.nil_append]
      have inside : '.' ∉ extension.reverse := by
        rw [List.mem_reverse, ← front]
        intro member
        have other := List.all_eq_true.1 (List.all_takeWhile (p := (· != '.'))) _ member
        exact absurd rfl (bne_iff_ne.1 other)
      have some : (c :: back).reverse ≠ [] := mt List.reverse_eq_nil_iff.1 (List.cons_ne_nil c back)
      refine Or.inl ⟨_, _, some, inside, parts, ?_⟩
      have found := splitName_append some inside
      rwa [← parts] at found

/-- A name has an extension if it is put together from its stem and the extension. -/
theorem splitName_snd_eq_some_iff {name extension : List Char} (some : (splitName name).1 ≠ [])
    (inside : '.' ∉ extension) :
    (splitName name).2 = Option.some extension ↔ name = (splitName name).1 ++ '.' :: extension := by
  constructor
  · intro found
    rcases splitName_cases name with ⟨stem, other, _, _, parts, names⟩ | names
    · rw [names] at found ⊢
      cases found
      exact parts
    · rw [names] at found
      cases found
  · intro parts
    have found := splitName_append some inside
    rw [← parts] at found
    rw [found]

/-! ## Another extension -/

section Extension

variable {path : String} {before : List (List Char)} {name : List Char}

theorem stem?_of_pieces (split : pieces path.toList = before ++ [name])
    (counts : isIdle name = false) (forward : name ≠ ['.', '.']) :
    stem? path = some (String.ofList (splitName name).1) := by
  rw [stem?, splitLast?_of_pieces split counts, if_neg forward, Option.map_some]

/-- What setting an extension does to a path whose last piece is a stem with a dot behind it. -/
theorem setExtension_join {stem : List Char} (extension : List Char)
    (inside : ∀ piece ∈ before ++ [stem ++ ['.']], '/' ∉ piece) (some : stem ≠ []) :
    setExtension (join (before ++ [stem ++ ['.']])) extension =
      if stem = ['.'] then join (before ++ [['.', '.']])
      else join (before ++ [stem ++ '.' :: extension]) := by
  have split := pieces_join (List.append_ne_nil_of_right_ne_nil before (by simp)) inside
  have counts : isIdle (stem ++ ['.']) = false := by
    cases stem with
    | nil => exact absurd rfl some
    | cons c stem => simp [isIdle]
  have back : stem ++ ['.'] = ['.', '.'] ↔ stem = ['.'] := by
    change stem ++ ['.'] = ['.'] ++ ['.'] ↔ stem = ['.']
    exact List.append_left_inj ['.']
  rw [setExtension, splitLast?_of_pieces split counts]
  by_cases dot : stem = ['.']
  · rw [if_pos (back.2 dot), if_pos dot, dot]
    rfl
  · rw [if_neg (mt back.1 dot), if_neg dot]
    simp only [splitName_append some List.not_mem_nil, List.reverse_reverse]

/-- Another extension leads a path with a file name to a name with the same stem, or, if the stem
is a single dot, one step back. -/
theorem toList_withExtension (split : pieces path.toList = before ++ [name])
    (counts : isIdle name = false) (forward : name ≠ ['.', '.']) (extension : String) :
    (withExtension path extension).toList =
      if (splitName name).1 = ['.'] then join (before ++ [['.', '.']])
      else join (before ++ [(splitName name).1 ++ '.' :: extension.toList]) := by
  have whole : path.toList = join (before ++ [name]) := by rw [← split, join_pieces]
  have inside : ∀ piece ∈ before ++ [name], '/' ∉ piece := fun piece member =>
    not_mem_of_mem_pieces (split ▸ member)
  have found : extension? path = (splitName name).2.map String.ofList := by
    rw [extension?, splitLast?_of_pieces split counts, if_neg forward, Option.bind_some]
  rw [withExtension, found, String.toList_ofList]
  rcases splitName_cases name with ⟨stem, old, some, _, parts, names⟩ | names
  · have cut : path.toList = join (before ++ [stem ++ ['.']]) ++ old := by
      rw [whole, parts, ← join_concat_append, List.append_assoc]
      rfl
    have kept : path.toList.take (path.length - old.length) = join (before ++ [stem ++ ['.']]) := by
      rw [← String.length_toList, cut, List.length_append, Nat.add_sub_cancel, List.take_left]
    simp only [names, Option.map_some, Option.getD_some, String.length_ofList, kept]
    refine setExtension_join _ (fun piece member => ?_) some
    rcases List.mem_append.1 member with member | member
    · exact inside piece (List.mem_append_left _ member)
    · rw [List.mem_singleton.1 member]
      have last := inside name (List.mem_append_right _ (List.mem_singleton_self name))
      rw [parts, ← List.singleton_append (x := '.'), ← List.append_assoc] at last
      exact fun slash => last (List.mem_append_left _ slash)
  · have dot : name ≠ ['.'] := by
      rintro rfl
      cases counts
    simp only [names, Option.map_none, Option.getD_none, String.length_empty, Nat.sub_zero,
      if_neg dot]
    rw [← String.length_toList, List.take_length, setExtension,
      splitLast?_of_pieces split counts, if_neg forward]
    simp only [names, List.reverse_reverse]

theorem pieces_withExtension (split : pieces path.toList = before ++ [name])
    (counts : isIdle name = false) (forward : name ≠ ['.', '.']) {extension : String}
    (inside : '/' ∉ extension.toList) :
    pieces (withExtension path extension).toList =
      before ++ [if (splitName name).1 = ['.'] then ['.', '.']
        else (splitName name).1 ++ '.' :: extension.toList] := by
  have parts (piece : List Char) (member : piece ∈ before ++ [name]) : '/' ∉ piece :=
    not_mem_of_mem_pieces (split ▸ member)
  have stem : '/' ∉ (splitName name).1 := by
    have last := parts name (List.mem_append_right _ (List.mem_singleton_self name))
    rcases splitName_cases name with ⟨stem, old, _, _, whole, names⟩ | names
    · rw [names]
      rw [whole] at last
      exact fun slash => last (List.mem_append_left _ slash)
    · rwa [names]
  have whole : (withExtension path extension).toList =
      join (before ++ [if (splitName name).1 = ['.'] then ['.', '.']
        else (splitName name).1 ++ '.' :: extension.toList]) := by
    rw [toList_withExtension split counts forward]
    split <;> rfl
  rw [whole]
  refine pieces_join (List.append_ne_nil_of_right_ne_nil before (List.cons_ne_nil _ _)) ?_
  intro piece member
  rcases List.mem_append.1 member with member | member
  · exact parts piece (List.mem_append_left _ member)
  · rw [List.mem_singleton.1 member]
    split
    · decide
    · simp [stem, inside]

end Extension

end Hack.Path
