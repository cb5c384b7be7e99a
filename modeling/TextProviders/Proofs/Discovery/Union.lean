import TextProviders.Proofs.Discovery.FirstWins

/-!
# Discovery is a union in which the first declaration of a name wins

A declaration is reported at a `Position`: the number of its root, the names that lead to its source, and its
place in the source (`IsReported`).  Positions are in the order of the roots, then of the names, then of the
places (`Position.Precedes`).

A discovery returns the declarations that are the first of their name in this order (`mem_discover_iff`),
sorted by their names.  The main statement, `discover_is_first_wins_union`, adds what follows for roots
that are appended, repeated, missing or reordered.
-/

namespace TextProviders.Discovery

/-! ## Positions -/

/-- Where a declaration is reported. -/
structure Position where
  /-- The number of the root. -/
  root : Nat
  /-- The names that lead from the root to the source. -/
  names : Location
  /-- The place among the declarations of the source. -/
  place : Nat

/-- The order of the roots, then of the names, then of the places. -/
def Position.Precedes (p q : Position) : Prop :=
  p.root < q.root ∨ p.root = q.root ∧ (p.names < q.names ∨ p.names = q.names ∧ p.place < q.place)

variable {fs : FileSystem} {here : Location} {roots : List Path} {ds : List Declaration} {d : Declaration}

/-- A declaration is reported at a position. -/
def IsReported (fs : FileSystem) (here : Location) (roots : List Path) (p : Position)
    (d : Declaration) : Prop :=
  ∃ root found, roots[p.root]? = some root ∧ IsSource fs here root p.names ∧
    Reports fs here (pathBelow root p.names) found ∧ found[p.place]? = some d

/-- A declaration is reported, and none of its name is reported at a position before. -/
def IsFirst (fs : FileSystem) (here : Location) (roots : List Path) (d : Declaration) : Prop :=
  ∃ p, IsReported fs here roots p d ∧
    ∀ q e, IsReported fs here roots q e → e.name = d.name → ¬q.Precedes p

/-- A declaration of the name is reported of a source below the root. -/
def ReportedUnder (fs : FileSystem) (here : Location) (root : Path) (name : String) : Prop :=
  ∃ names found, IsSource fs here root names ∧ Reports fs here (pathBelow root names) found ∧
    name ∈ found.map (·.name)

theorem isReported_iff {p : Position} : IsReported fs here roots p d ↔
    ∃ root, roots[p.root]? = some root ∧ IsSource fs here root p.names ∧
      (declared fs here (pathBelow root p.names))[p.place]? = some d := by
  simp only [getElem?_declared_iff]
  exact ⟨fun ⟨root, found, hroot, hsource, hfound, hd⟩ => ⟨root, hroot, hsource, found, hfound, hd⟩,
    fun ⟨root, hroot, hsource, found, hfound, hd⟩ => ⟨root, found, hroot, hsource, hfound, hd⟩⟩

theorem reportedUnder_iff {root : Path} {name : String} : ReportedUnder fs here root name ↔
    ∃ e ∈ declaredUnder fs here root, e.name = name := by
  constructor
  · rintro ⟨names, found, hsource, hfound, hname⟩
    obtain ⟨e, he, rfl⟩ := List.mem_map.mp hname
    exact ⟨e, mem_declaredUnder_iff.mpr ⟨names, hsource, hfound.declared_eq.symm ▸ he⟩, rfl⟩
  · rintro ⟨e, he, rfl⟩
    obtain ⟨names, hsource, he⟩ := mem_declaredUnder_iff.mp he
    obtain ⟨k, hk⟩ := List.getElem?_of_mem he
    obtain ⟨found, hfound, hk⟩ := getElem?_declared_iff.mp hk
    exact ⟨names, found, hsource, hfound, List.mem_map.mpr ⟨e, List.mem_of_getElem? hk, rfl⟩⟩

/-- A declaration that is reported is reported below its root. -/
theorem IsReported.reportedUnder {p : Position} {root : Path} (h : IsReported fs here roots p d)
    (hroot : roots[p.root]? = some root) : ReportedUnder fs here root d.name := by
  obtain ⟨_, found, hroot', hsource, hfound, hd⟩ := h
  obtain rfl := Option.some.inj (hroot.symm.trans hroot')
  exact ⟨p.names, found, hsource, hfound, List.mem_map.mpr ⟨d, List.mem_of_getElem? hd, rfl⟩⟩

/-- **The first of each name in what is reported** is the one at the first position. -/
theorem mem_firstOfEach_declared_iff :
    d ∈ firstOfEach (roots.flatMap (declaredUnder fs here)) ↔ IsFirst fs here roots d := by
  rw [mem_firstOfEach_roots_iff]
  simp only [mem_firstOfEach_declaredUnder_iff]
  simp only [mem_firstOfEach_iff_getElem?]
  constructor
  · rintro ⟨i, root, hroot, ⟨names, hsource, ⟨k, hd, hplace⟩, hnames⟩, hroots⟩
    refine ⟨⟨i, names, k⟩, isReported_iff.mpr ⟨root, hroot, hsource, hd⟩, ?_⟩
    intro ⟨j, names', k'⟩ e he hname
    obtain ⟨root', hroot', hsource', he⟩ := isReported_iff.mp he
    have hmem := List.mem_of_getElem? he
    rintro (hlt | ⟨hsame, hlt | ⟨hsame', hlt⟩⟩)
    · exact hroots j hlt root' hroot' e (mem_declaredUnder_iff.mpr ⟨names', hsource', hmem⟩) hname
    · obtain rfl : j = i := hsame
      obtain rfl := Option.some.inj (hroot'.symm.trans hroot)
      exact hnames names' hlt hsource' e hmem hname
    · obtain rfl : j = i := hsame
      obtain rfl : names' = names := hsame'
      obtain rfl := Option.some.inj (hroot'.symm.trans hroot)
      exact hplace k' hlt e he hname
  · rintro ⟨⟨i, names, k⟩, hd, hleast⟩
    obtain ⟨root, hroot, hsource, hd⟩ := isReported_iff.mp hd
    refine ⟨i, root, hroot, ⟨names, hsource, ⟨k, hd, fun k' hlt e he hname => ?_⟩,
      fun names' hlt hsource' e he hname => ?_⟩, fun j hlt root' hroot' e he hname => ?_⟩
    · refine hleast ⟨i, names, k'⟩ e ?_ hname (.inr ⟨rfl, .inr ⟨rfl, hlt⟩⟩)
      exact isReported_iff.mpr ⟨root, hroot, hsource, he⟩
    · obtain ⟨k', he⟩ := List.getElem?_of_mem he
      refine hleast ⟨i, names', k'⟩ e ?_ hname (.inr ⟨rfl, .inl hlt⟩)
      exact isReported_iff.mpr ⟨root, hroot, hsource', he⟩
    · obtain ⟨names', hsource', he⟩ := mem_declaredUnder_iff.mp he
      obtain ⟨k', he⟩ := List.getElem?_of_mem he
      refine hleast ⟨j, names', k'⟩ e ?_ hname (.inl hlt)
      exact isReported_iff.mpr ⟨root', hroot', hsource', he⟩

/-- What is first of its name under one order of the roots is first under another, or two roots have the
name. -/
theorem IsFirst.eq_or_twoRoots {roots' : List Path} {d' : Declaration} (h : IsFirst fs here roots d)
    (h' : IsFirst fs here roots' d') (hname : d'.name = d.name) :
    d' = d ∨ ∃ root ∈ roots, ∃ root' ∈ roots', root ≠ root' ∧
      ReportedUnder fs here root d.name ∧ ReportedUnder fs here root' d.name := by
  obtain ⟨p, hp, hleast⟩ := h
  obtain ⟨p', hp', hleast'⟩ := h'
  obtain ⟨root, hroot, hsource, hd⟩ := isReported_iff.mp hp
  obtain ⟨root', hroot', hsource', hd'⟩ := isReported_iff.mp hp'
  by_cases hsame : root = root'
  · left
    subst hsame
    -- each of the two is reported under both orders, so neither precedes the other
    have hnot := hleast ⟨p.root, p'.names, p'.place⟩ d'
      (isReported_iff.mpr ⟨root, hroot, hsource', hd'⟩) hname
    have hnot' := hleast' ⟨p'.root, p.names, p.place⟩ d
      (isReported_iff.mpr ⟨root, hroot', hsource, hd⟩) hname.symm
    have hnames : p.names = p'.names :=
      le_antisymm (not_lt.mp fun hlt => hnot (.inr ⟨rfl, .inl hlt⟩))
        (not_lt.mp fun hlt => hnot' (.inr ⟨rfl, .inl hlt⟩))
    have hplaces : p.place = p'.place :=
      Nat.le_antisymm (Nat.not_lt.mp fun hlt => hnot (.inr ⟨rfl, .inr ⟨hnames.symm, hlt⟩⟩))
        (Nat.not_lt.mp fun hlt => hnot' (.inr ⟨rfl, .inr ⟨hnames, hlt⟩⟩))
    rw [← hnames, ← hplaces] at hd'
    exact Option.some.inj (hd'.symm.trans hd)
  · right
    exact ⟨root, List.mem_of_getElem? hroot, root', List.mem_of_getElem? hroot', hsame,
      hp.reportedUnder hroot, hname ▸ hp'.reportedUnder hroot'⟩

/-! ## What a discovery returns -/

theorem mem_discover_iff (h : (discover fs here roots).2 = .ok ds) :
    d ∈ ds ↔ IsFirst fs here roots d := by
  obtain ⟨-, rfl⟩ := discover_eq_ok_iff_declaredUnder.mp h
  rw [mem_united_iff, mem_firstOfEach_declared_iff]

theorem pairwise_discover (h : (discover fs here roots).2 = .ok ds) :
    ds.Pairwise fun d e => d.name < e.name := by
  obtain ⟨-, rfl⟩ := discover_eq_ok_iff_declaredUnder.mp h
  exact pairwise_united _

theorem mem_names_discover_iff (h : (discover fs here roots).2 = .ok ds) {name : String} :
    name ∈ ds.map (·.name) ↔ ∃ root ∈ roots, ReportedUnder fs here root name := by
  obtain ⟨-, rfl⟩ := discover_eq_ok_iff_declaredUnder.mp h
  simp only [List.mem_map, mem_united_iff, reportedUnder_iff]
  constructor
  · rintro ⟨d, hd, rfl⟩
    obtain ⟨before, after, hall, -⟩ := mem_firstOfEach_iff.mp hd
    have hmem : d ∈ roots.flatMap (declaredUnder fs here) := by simp [hall]
    obtain ⟨root, hroot, hd⟩ := List.mem_flatMap.mp hmem
    exact ⟨root, hroot, d, hd, rfl⟩
  · rintro ⟨root, hroot, d, hd, rfl⟩
    exact exists_mem_firstOfEach (List.mem_flatMap.mpr ⟨root, hroot, hd⟩)

/-- A root that is appended changes and removes nothing. -/
theorem mem_discover_append {more : List Path} {ds' : List Declaration}
    (h : (discover fs here roots).2 = .ok ds) (h' : (discover fs here (roots ++ more)).2 = .ok ds')
    (hd : d ∈ ds) : d ∈ ds' := by
  obtain ⟨-, rfl⟩ := discover_eq_ok_iff_declaredUnder.mp h
  obtain ⟨-, rfl⟩ := discover_eq_ok_iff_declaredUnder.mp h'
  rw [mem_united_iff] at hd ⊢
  rw [List.flatMap_append, firstOfEach_append]
  exact List.mem_append_left _ hd

/-- A root that stands before, or that is not there, makes no difference. -/
theorem discover_insert {before after : List Path} {root : Path}
    (h : (discover fs here (before ++ after)).2 = .ok ds)
    (hroot : root ∈ before ∨ fs.isDirectory here root = .ok false) :
    (discover fs here (before ++ root :: after)).2 = .ok ds := by
  obtain ⟨hall, rfl⟩ := discover_eq_ok_iff_declaredUnder.mp h
  have hunder : ReportsUnder fs here root (declaredUnder fs here root) := by
    rcases hroot with hmem | hmissing
    · exact hall root (List.mem_append_left _ hmem)
    · have hnone := ReportsUnder.missing hmissing
      rwa [hnone.declaredUnder_eq]
  have hnames : ∀ d ∈ declaredUnder fs here root,
      ∃ e ∈ before.flatMap (declaredUnder fs here), e.name = d.name := by
    intro d hd
    rcases hroot with hmem | hmissing
    · exact ⟨d, List.mem_flatMap.mpr ⟨root, hmem, hd⟩, rfl⟩
    · rw [(ReportsUnder.missing hmissing).declaredUnder_eq] at hd
      cases hd
  refine discover_eq_ok_iff_declaredUnder.mpr ⟨fun root' hmem => ?_, ?_⟩
  · rcases List.mem_append.mp hmem with hmem | hmem
    · exact hall root' (List.mem_append_left _ hmem)
    · rcases List.mem_cons.mp hmem with rfl | hmem
      · exact hunder
      · exact hall root' (List.mem_append_right _ hmem)
  · rw [united, united, List.flatMap_append, List.flatMap_append, List.flatMap_cons,
      firstOfEach_append_of_subset hnames]

/-- In another order of the roots the same names are found, and only a name of two roots can be represented by
another declaration. -/
theorem discover_perm {roots' : List Path} (h : (discover fs here roots).2 = .ok ds)
    (hperm : roots'.Perm roots) :
    ∃ ds', (discover fs here roots').2 = .ok ds' ∧ ds'.map (·.name) = ds.map (·.name) ∧
      ∀ d ∈ ds, d ∈ ds' ∨ ∃ root ∈ roots, ∃ root' ∈ roots, root ≠ root' ∧
        ReportedUnder fs here root d.name ∧ ReportedUnder fs here root' d.name := by
  have hall := (discover_eq_ok_iff_declaredUnder.mp h).1
  have h' : (discover fs here roots').2 = .ok (united (roots'.flatMap (declaredUnder fs here))) :=
    discover_eq_ok_iff_declaredUnder.mpr ⟨fun root hroot => hall root (hperm.mem_iff.mp hroot), rfl⟩
  generalize united (roots'.flatMap (declaredUnder fs here)) = ds' at h'
  have hmem (name : String) : name ∈ ds'.map (·.name) ↔ name ∈ ds.map (·.name) := by
    rw [mem_names_discover_iff h', mem_names_discover_iff h]
    simp only [hperm.mem_iff]
  have hsorted' := List.pairwise_map.mpr (pairwise_discover h')
  have hsorted := List.pairwise_map.mpr (pairwise_discover h)
  have hnames : ds'.map (·.name) = ds.map (·.name) := by
    have hsame : (ds'.map (·.name)).Perm (ds.map (·.name)) :=
      (List.perm_ext_iff_of_nodup (hsorted'.imp ne_of_lt) (hsorted.imp ne_of_lt)).mpr hmem
    exact hsame.eq_of_pairwise (fun _ _ _ _ hab hba => absurd hba hab.asymm) hsorted' hsorted
  refine ⟨ds', h', hnames, fun d hd => ?_⟩
  obtain ⟨d', hd', hname⟩ := List.mem_map.mp (hnames.symm ▸ List.mem_map_of_mem hd)
  rcases ((mem_discover_iff h).mp hd).eq_or_twoRoots ((mem_discover_iff h').mp hd') hname with
    rfl | ⟨root, hroot, root', hroot', htwo⟩
  · exact .inl hd'
  · exact .inr ⟨root, hroot, root', hperm.mem_iff.mp hroot', htwo⟩

/-- **A discovery is the union of what is reported below its roots, in which the first of each name wins.**
Where it returns, the names strictly increase; a name is found exactly if a source below some root declares
it; and the declaration that is returned for a name is the one at the first position.

Roots that are appended change and remove nothing that was found, if all can still be scanned; to repeat a
root or to add one that is not there changes nothing; and another order of the roots can change only which
declaration stands for a name of several roots. -/
theorem discover_is_first_wins_union (h : (discover fs here roots).2 = .ok ds) :
    (ds.Pairwise fun d e => d.name < e.name) ∧
    (∀ name, name ∈ ds.map (·.name) ↔ ∃ root ∈ roots, ReportedUnder fs here root name) ∧
    (∀ d, d ∈ ds ↔ IsFirst fs here roots d) ∧
    (∀ more ds', (discover fs here (roots ++ more)).2 = .ok ds' → ∀ d ∈ ds, d ∈ ds') ∧
    (∀ before root after, roots = before ++ after →
      root ∈ before ∨ fs.isDirectory here root = .ok false →
        (discover fs here (before ++ root :: after)).2 = .ok ds) ∧
    ∀ roots', roots'.Perm roots →
      ∃ ds', (discover fs here roots').2 = .ok ds' ∧ ds'.map (·.name) = ds.map (·.name) ∧
        ∀ d ∈ ds, d ∈ ds' ∨ ∃ root ∈ roots, ∃ root' ∈ roots, root ≠ root' ∧
          ReportedUnder fs here root d.name ∧ ReportedUnder fs here root' d.name := by
  refine ⟨pairwise_discover h, fun _ => mem_names_discover_iff h, fun _ => mem_discover_iff h, ?_, ?_, ?_⟩
  · exact fun more ds' h' d hd => mem_discover_append h h' hd
  · rintro before root after rfl hroot
    exact discover_insert h hroot
  · exact fun roots' hperm => discover_perm h hperm

/-- Two roots have a type of one name, of which the first is returned. -/
theorem discover_is_first_wins_union_shared_name :
    let source (text : String) : Entry := .file (Text.Utf8.encode text.toList)
    let fs : FileSystem := ⟨[(["a"], .directory), (["b"], .directory),
      (["a", "T.java"], source "@TextResourceAware class S \x7b\x7d @TextResourceAware class T \x7b\x7d"),
      (["b", "T.java"], source "@TextResourceAware public class T \x7b\x7d")]⟩
    let root (name : String) : Path := ⟨.here, [name]⟩
    let found : List Declaration :=
      [{ name := "S", visibility := .package }, { name := "T", visibility := .package }]
    (discover fs [] [root "a", root "b"]).2 = .ok found ∧
      (∀ d, d ∈ found ↔ IsFirst fs [] [root "a", root "b"] d) ∧
      (discover fs [] [root "a", root "b", root "a"]).2 = .ok found ∧
      (discover fs [] [root "none", root "a", root "b"]).2 = .ok found ∧
      ∃ ds, (discover fs [] [root "b", root "a"]).2 = .ok ds ∧ ds.map (·.name) = ["S", "T"] := by
  intro source fs root found
  have hreported : (scanRoots fs [] [root "a", root "b"]).2.toOption =
      some (found ++ [{ name := "T", visibility := .everyone }]) := by
    decide +kernel
  have hsorted : united (found ++ [{ name := "T", visibility := .everyone }]) = found :=
    List.mergeSort_of_pairwise (by decide +kernel)
  have hfound : (discover fs [] [root "a", root "b"]).2 = .ok found := by
    show (scanRoots fs [] [root "a", root "b"]).2.map united = .ok found
    cases hscanned : (scanRoots fs [] [root "a", root "b"]).2 with
    | error f =>
        rw [hscanned] at hreported
        cases hreported
    | ok reported =>
        rw [hscanned] at hreported
        obtain rfl := Option.some.inj hreported
        exact congrArg Except.ok hsorted
  obtain ⟨-, -, hfirst, -, hinsert, hperm⟩ := discover_is_first_wins_union hfound
  obtain ⟨ds, hds, hnames, -⟩ := hperm [root "b", root "a"] (.swap _ _ _)
  refine ⟨hfound, hfirst, ?_, ?_, ds, hds, hnames⟩
  · exact hinsert [root "a", root "b"] (root "a") [] rfl (.inl List.mem_cons_self)
  · refine hinsert [] (root "none") [root "a", root "b"] rfl (.inr ?_)
    decide +kernel

end TextProviders.Discovery
