import TextProviders.Proofs.FileSystem.Keeping
import TextProviders.Proofs.Layout.Places

/-!
# The files of one type stand beside each other

The providers of a type and its resource are named after the type, each with an ending of its own.  An
accepted name has no slash; but the engine takes any name, and in one with slashes the type is a path of
its own, which may even start at the root.  The endings have no slash, so whatever the name is, they come
at the end of the last part of the path (`Path.child_append`): below one root the files of a type have
the same directory, and names that differ.

Hence a place to which the path of one provider leads is no place to which that of the other leads, below
whichever root (`Target.locate_ne`), and none of its resource, unless the extension goes on to another
directory (`Declaration.locate_resource_ne`).
-/

namespace TextProviders

namespace Path

/-- The directory below a path that a text leads to before its last slash. -/
def beside (a : Path) (stem : List Char) : Path :=
  a.join ⟨anchorOf stem, (((Text.splitOn '/' stem).dropLast).filter fun part =>
    part ≠ [] ∧ part ≠ ['.']).map String.ofList⟩

/-- What stands in a text behind its last slash. -/
def stemName (stem : List Char) : List Char :=
  (Text.splitOn '/' stem).getLastD []

section

variable {stem ending : List Char} (hslash : '/' ∉ ending) (hlong : 2 ≤ ending.length)

include hslash hlong

theorem anchorOf_append : anchorOf (stem ++ ending) = anchorOf stem := by
  cases ending with
  | nil => cases hlong
  | cons c rest =>
      have hc : c ≠ '/' := by
        rintro rfl
        exact hslash List.mem_cons_self
      have hslashes : (stem ++ c :: rest).takeWhile (· = '/') = stem.takeWhile (· = '/') := by
        rw [List.takeWhile_append, List.takeWhile_cons_of_neg (by simpa using hc), List.append_nil]
        split
        · next hwhole => exact ((List.takeWhile_prefix _).eq_of_length hwhole).symm
        · rfl
      unfold anchorOf
      rw [hslashes]

theorem partsOf_append :
    partsOf (stem ++ ending) = (((Text.splitOn '/' stem).dropLast).filter fun part =>
      part ≠ [] ∧ part ≠ ['.']).map String.ofList ++ [String.ofList (stemName stem ++ ending)] := by
  obtain ⟨front, last, hpieces⟩ := Text.exists_splitOn_eq_append '/' stem
  have hlength : 2 ≤ (last ++ ending).length := by
    rw [List.length_append]
    exact Nat.le_add_left_of_le hlong
  have hne : last ++ ending ≠ [] := by
    intro heq
    rw [heq] at hlength
    cases hlength
  have hdot : last ++ ending ≠ ['.'] := by
    intro heq
    rw [heq] at hlength
    exact absurd hlength (by decide)
  rw [partsOf, Text.splitOn_append hpieces hslash, stemName, hpieces]
  simp [List.filter_append, hne, hdot]

/-- What a text with an ending names stands beside what it names with any other. -/
theorem child_append (a : Path) :
    a.child (String.ofList (stem ++ ending)) =
      ⟨(a.beside stem).anchor, (a.beside stem).parts ++ [String.ofList (stemName stem ++ ending)]⟩ := by
  rw [child, ofString, String.toList_ofList, anchorOf_append hslash hlong,
    partsOf_append hslash hlong, beside]
  cases hanchor : anchorOf stem with
  | here => simp [join]
  | root | doubleRoot => simp [join]

end

end Path

/-! ## Where the files of a type stand -/

/-- The directory of a type below a root. -/
def Declaration.dirUnder (d : Declaration) (root : Path) : Path :=
  (Layout.packageDir root d.package).beside d.simpleName.toList

/-- The name of a file of a type that is named like the type, with an ending. -/
def Declaration.fileName (d : Declaration) (ending : String) : String :=
  String.ofList (Path.stemName d.simpleName.toList ++ ending.toList)

/-- What the file of a provider has behind the name of the type. -/
def Strategy.ending (strategy : Strategy) : String :=
  strategy.suffix ++ ".java"

theorem Declaration.fileName_inj {d : Declaration} {ending other : String} :
    d.fileName ending = d.fileName other ↔ ending = other := by
  unfold fileName
  constructor
  · intro h
    exact String.toList_inj.mp (List.append_cancel_left (String.ofList_injective h))
  · rintro rfl
    rfl

/-- Below a root, the path of a provider ends with the file of the provider in the directory of the
type. -/
theorem Target.sourceFile_beside (t : Target) (root : Path) :
    Layout.sourceFile root t.name =
      ⟨(t.declaration.dirUnder root).anchor,
        (t.declaration.dirUnder root).parts ++ [t.declaration.fileName t.strategy.ending]⟩ := by
  obtain ⟨front, last, hpieces⟩ := Text.exists_splitOn_eq_append '.' t.declaration.name.toList
  have hslash : '/' ∉ t.strategy.ending.toList := by cases t.strategy <;> decide
  have hlong : 2 ≤ t.strategy.ending.toList.length := by cases t.strategy <;> decide
  have hname : String.ofList (last ++ t.strategy.suffix.toList) ++ ".java" =
      String.ofList (last ++ t.strategy.ending.toList) := by
    simp [Strategy.ending, String.ofList_append, String.append_assoc]
  unfold Layout.sourceFile Declaration.dirUnder Declaration.fileName Declaration.package
    Declaration.simpleName
  rw [Text.splitLast_eq (t.splitOn_name hpieces), Text.splitLast_eq hpieces]
  dsimp only
  rw [hname, Path.child_append hslash hlong, String.toList_ofList]

/-- So does that of the resource, unless the extension goes on to another directory. -/
theorem Declaration.pathUnder_beside (d : Declaration) (root : Path) {extension : String}
    (hne : extension ≠ "") (hslash : '/' ∉ extension.toList) :
    Resolver.pathUnder root ⟨d.package, d.simpleName, extension⟩ =
      ⟨(d.dirUnder root).anchor, (d.dirUnder root).parts ++ [d.fileName ("." ++ extension)]⟩ := by
  have hending : '/' ∉ ("." ++ extension).toList := by simp [hslash]
  have hlong : 2 ≤ ("." ++ extension).toList.length := by
    have hpositive : extension.toList ≠ [] := fun h => hne (String.toList_eq_nil_iff.mp h)
    have := List.length_pos_iff.mpr hpositive
    rw [String.toList_append, List.length_append]
    exact Nat.add_le_add_left this 1
  have hname : d.simpleName ++ "." ++ extension =
      String.ofList (d.simpleName.toList ++ ("." ++ extension).toList) := by
    simp [String.ofList_append, String.append_assoc]
  unfold Resolver.pathUnder ResourceName.fileName
  dsimp only
  rw [hname, Path.child_append hending hlong, Declaration.dirUnder, Declaration.fileName]

/-! ## To what they lead -/

section

variable {fs fs' : FileSystem} {here loc : Location} {p p' : Path} {front front' : List String}
  {last last' : String}

open FileSystem

/-- Paths with different last parts lead to different places, in whatever states. -/
theorem locate_ne_of_last_ne (hp : p.parts = front ++ [last]) (hp' : p'.parts = front' ++ [last'])
    (hne : last ≠ last') (h : fs.locate here p = .ok (.at loc)) :
    fs'.locate here p' ≠ .ok (.at loc) := by
  intro h'
  obtain ⟨dir, name, -, hlast, -, rfl⟩ := locate_at h
  obtain ⟨dir', name', -, hlast', -, hloc⟩ := locate_at h'
  rw [hp, List.getLast?_concat] at hlast
  rw [hp', List.getLast?_concat] at hlast'
  obtain ⟨-, hnames⟩ := List.append_inj' hloc rfl
  obtain rfl := List.singleton_inj.mp hnames
  exact hne (Option.some.inj (hlast.trans hlast'.symm))

variable {d : Declaration} {root root' : Path}

/-- The paths of the two providers of a type lead to different places. -/
theorem Target.locate_ne {strategy strategy' : Strategy} (hne : strategy ≠ strategy')
    (h : fs.locate here (Layout.sourceFile root (Target.name ⟨strategy, d⟩)) = .ok (.at loc)) :
    fs'.locate here (Layout.sourceFile root' (Target.name ⟨strategy', d⟩)) ≠ .ok (.at loc) := by
  rw [Target.sourceFile_beside] at h ⊢
  refine locate_ne_of_last_ne rfl rfl (fun heq => ?_) h
  have hending : strategy.ending = strategy'.ending := Declaration.fileName_inj.mp heq
  cases strategy <;> cases strategy' <;> first | exact hne rfl | exact absurd hending (by decide)

/-- The path of a type's resource leads to no place to which that of a provider leads. -/
theorem Declaration.locate_resource_ne {strategy : Strategy} {extension : String}
    (hext : d.binding.extension? = some extension) (hslash : '/' ∉ extension.toList)
    (h : fs.locate here (Layout.sourceFile root (Target.name ⟨strategy, d⟩)) = .ok (.at loc)) :
    fs'.locate here (Resolver.pathUnder root' ⟨d.package, d.simpleName, extension⟩) ≠
      .ok (.at loc) := by
  have hne : extension ≠ "" := by
    rintro rfl
    unfold Binding.extension? at hext
    dsimp only at hext
    split at hext
    · cases hext
    · next hsome =>
      have hempty := congrArg String.toList (Option.some.inj hext)
      rw [String.toList_ofList] at hempty
      exact hsome (List.isEmpty_iff.mpr hempty)
  rw [Target.sourceFile_beside] at h
  rw [d.pathUnder_beside root' hne hslash]
  refine locate_ne_of_last_ne rfl rfl (fun heq => ?_) h
  have hending : strategy.ending = "." ++ extension := Declaration.fileName_inj.mp heq
  have hfirst := congrArg (fun ending : String => ending.toList.head?) hending
  cases strategy <;> simp [Strategy.ending, Strategy.suffix] at hfirst

end

end TextProviders
