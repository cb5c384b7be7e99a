import TextProviders.Proofs.Discovery.Sources

/-!
# The first declaration of each name

A discovery returns the first declaration of each name in what is reported, sorted by the names (`united`,
`discover_eq_ok_iff_declaredUnder`).

What is reported is put together of what is reported of each root, and that of what is reported of each
source.  The first of a name in the whole is the first of it in its part, and no part before has the name
(`mem_firstOfEach_flatMap_iff`).  This is used twice, for the roots (`mem_firstOfEach_roots_iff`) and for the
sources of a root (`mem_firstOfEach_declaredUnder_iff`); within a source the places are compared
(`mem_firstOfEach_iff_getElem?`).
-/

namespace TextProviders.Discovery

/-! ## The first of each name -/

section

variable {ds : List Declaration} {d : Declaration}

/-- What is kept has nothing of its name before it. -/
theorem mem_firstOfEach_iff : d ∈ firstOfEach ds ↔
    ∃ before after, ds = before ++ d :: after ∧ ∀ e ∈ before, e.name ≠ d.name := by
  induction ds with
  | nil =>
      refine ⟨fun h => (by cases h), ?_⟩
      rintro ⟨before, after, h, -⟩
      exact absurd h.symm (List.append_ne_nil_of_right_ne_nil _ (List.cons_ne_nil _ _))
  | cons e rest ih =>
      rw [firstOfEach, List.mem_cons, List.mem_filter, ih, decide_eq_true_eq]
      constructor
      · rintro (rfl | ⟨⟨before, after, rfl, hbefore⟩, hne⟩)
        · exact ⟨[], rest, rfl, fun _ h => (by cases h)⟩
        · exact ⟨e :: before, after, rfl, List.forall_mem_cons.mpr ⟨Ne.symm hne, hbefore⟩⟩
      · rintro ⟨before, after, h, hbefore⟩
        cases before with
        | nil => exact .inl (List.cons.inj h).1.symm
        | cons first before =>
            obtain ⟨rfl, rfl⟩ := List.cons.inj h
            obtain ⟨hfirst, hbefore⟩ := List.forall_mem_cons.mp hbefore
            exact .inr ⟨⟨before, after, rfl, hbefore⟩, hfirst.symm⟩

theorem pairwise_firstOfEach (ds : List Declaration) :
    (firstOfEach ds).Pairwise fun d e => d.name ≠ e.name := by
  induction ds with
  | nil => exact .nil
  | cons d rest ih =>
      rw [firstOfEach]
      exact .cons (fun e he => Ne.symm (of_decide_eq_true (List.mem_filter.mp he).2)) (ih.filter _)

/-- Of each name something is kept. -/
theorem exists_mem_firstOfEach (h : d ∈ ds) : ∃ e ∈ firstOfEach ds, e.name = d.name := by
  induction ds with
  | nil => cases h
  | cons e rest ih =>
      rw [firstOfEach]
      by_cases hname : d.name = e.name
      · exact ⟨e, List.mem_cons_self, hname.symm⟩
      · have hrest := (List.mem_cons.mp h).resolve_left fun heq => hname (congrArg Declaration.name heq)
        obtain ⟨f, hf, hsame⟩ := ih hrest
        refine ⟨f, List.mem_cons_of_mem _ (List.mem_filter.mpr ⟨hf, decide_eq_true ?_⟩), hsame⟩
        rwa [hsame]

/-- What stands behind something adds only names that are not in it. -/
theorem firstOfEach_append (as bs : List Declaration) : firstOfEach (as ++ bs) =
    firstOfEach as ++ (firstOfEach bs).filter fun d => decide (d.name ∉ as.map (·.name)) := by
  induction as with
  | nil => simp [firstOfEach]
  | cons a as ih =>
      rw [List.cons_append, firstOfEach, ih, firstOfEach, List.filter_append, List.filter_filter,
        List.cons_append]
      congr 2
      refine List.filter_congr fun d _ => ?_
      simp [not_or]

/-- Names that stand before make no difference when they are repeated. -/
theorem firstOfEach_append_of_subset {as bs : List Declaration}
    (h : ∀ d ∈ bs, ∃ e ∈ as, e.name = d.name) (cs : List Declaration) :
    firstOfEach (as ++ (bs ++ cs)) = firstOfEach (as ++ cs) := by
  have hnames (name : String) : name ∉ (as ++ bs).map (·.name) ↔ name ∉ as.map (·.name) := by
    simp only [List.map_append, List.mem_append, not_or, and_iff_left_iff_imp]
    intro hname hmem
    obtain ⟨d, hd, rfl⟩ := List.mem_map.mp hmem
    obtain ⟨e, he, hsame⟩ := h d hd
    exact hname (List.mem_map.mpr ⟨e, he, hsame⟩)
  have hnone : (firstOfEach bs).filter (fun d => decide (d.name ∉ as.map (·.name))) = [] := by
    refine List.filter_eq_nil_iff.mpr fun d hd => ?_
    obtain ⟨before, after, rfl, -⟩ := mem_firstOfEach_iff.mp hd
    obtain ⟨e, he, hsame⟩ := h d (by simp)
    simpa using ⟨e, he, hsame⟩
  rw [← List.append_assoc, firstOfEach_append, firstOfEach_append as bs, hnone, List.append_nil,
    firstOfEach_append as cs]
  simp only [hnames]

end

/-- The first declaration of each name, sorted by name. -/
def united (ds : List Declaration) : List Declaration :=
  (firstOfEach ds).mergeSort fun a b => a.name ≤ b.name

theorem mem_united_iff {ds : List Declaration} {d : Declaration} : d ∈ united ds ↔ d ∈ firstOfEach ds :=
  List.mem_mergeSort

theorem pairwise_united (ds : List Declaration) : (united ds).Pairwise fun d e => d.name < e.name := by
  have hsorted : (united ds).Pairwise fun d e => decide (d.name ≤ e.name) = true :=
    List.pairwise_mergeSort (fun a b c hab hbc => decide_eq_true
        ((of_decide_eq_true hab).trans (of_decide_eq_true hbc)))
      (fun a b => by
        rw [Bool.or_eq_true, decide_eq_true_eq, decide_eq_true_eq]
        exact le_total _ _) _
  have hdistinct : (united ds).Pairwise fun d e => d.name ≠ e.name :=
    ((List.mergeSort_perm _ _).pairwise_iff fun h => Ne.symm h).mpr (pairwise_firstOfEach ds)
  exact (hsorted.and hdistinct).imp fun h => lt_of_le_of_ne (of_decide_eq_true h.1) h.2

variable {fs : FileSystem} {here : Location}

theorem discover_eq_ok_iff {roots : List Path} {ds : List Declaration} :
    (discover fs here roots).2 = .ok ds ↔
      ∃ parts, List.Forall₂ (ReportsUnder fs here) roots parts ∧ ds = united parts.flatten := by
  have hanswer : (discover fs here roots).2 = (scanRoots fs here roots).2.map united := rfl
  rw [hanswer]
  constructor
  · intro h
    cases hscanned : (scanRoots fs here roots).2 with
    | error f =>
        rw [hscanned] at h
        cases h
    | ok found =>
        rw [hscanned] at h
        obtain ⟨parts, hparts, rfl⟩ := scanRoots_eq_ok_iff.mp hscanned
        exact ⟨parts, hparts, (Except.ok.inj h).symm⟩
  · rintro ⟨parts, hparts, rfl⟩
    rw [scanRoots_eq_ok_iff.mpr ⟨parts, hparts, rfl⟩]
    rfl

/-! ## Three orders, one in the other -/

/-- In a source, the first of each name has none of its name at an earlier place. -/
theorem mem_firstOfEach_iff_getElem? {ds : List Declaration} {d : Declaration} : d ∈ firstOfEach ds ↔
    ∃ k : Nat, ds[k]? = some d ∧ ∀ k' < k, ∀ e, ds[k']? = some e → e.name ≠ d.name := by
  rw [mem_firstOfEach_iff]
  constructor
  · rintro ⟨before, after, rfl, hbefore⟩
    refine ⟨before.length, by simp, fun k' hk' e he => ?_⟩
    rw [List.getElem?_append_left hk'] at he
    exact hbefore e (List.mem_of_getElem? he)
  · rintro ⟨k, hd, hleast⟩
    obtain ⟨hk, rfl⟩ := List.getElem?_eq_some_iff.mp hd
    refine ⟨ds.take k, ds.drop (k + 1), ?_, fun e he => ?_⟩
    · rw [List.getElem_cons_drop, List.take_append_drop]
    · obtain ⟨k', hk', rfl⟩ := List.mem_take_iff_getElem.mp he
      exact hleast k' (by omega) _ (List.getElem?_eq_getElem _)

/-- **The first of each name in what is put together** of parts in order is the first in its part, and no
earlier part has its name.  A part that is repeated changes nothing. -/
theorem mem_firstOfEach_flatMap_iff {κ : Type} (lt : κ → κ → Prop) {f : κ → List Declaration}
    {keys : List κ} (hirrefl : ∀ k, ¬lt k k) (hsorted : keys.Pairwise fun a b => ¬lt b a)
    (hsame : ∀ a ∈ keys, ∀ b ∈ keys, ¬lt a b → ¬lt b a → f a = f b) {d : Declaration} :
    d ∈ firstOfEach (keys.flatMap f) ↔ ∃ k ∈ keys, d ∈ firstOfEach (f k) ∧
      ∀ k' ∈ keys, lt k' k → ∀ e ∈ f k', e.name ≠ d.name := by
  induction keys with
  | nil => simp [firstOfEach]
  | cons key rest ih =>
      obtain ⟨hkey, hrest⟩ := List.pairwise_cons.mp hsorted
      have hsame' : ∀ a ∈ rest, ∀ b ∈ rest, ¬lt a b → ¬lt b a → f a = f b := fun a ha b hb =>
        hsame a (List.mem_cons_of_mem _ ha) b (List.mem_cons_of_mem _ hb)
      have hnames : d.name ∉ (f key).map (·.name) ↔ ∀ e ∈ f key, e.name ≠ d.name := by simp
      rw [List.flatMap_cons, firstOfEach_append, List.mem_append, List.mem_filter, ih hrest hsame',
        decide_eq_true_eq, hnames]
      constructor
      · rintro (hd | ⟨⟨k, hk, hd, hleast⟩, hnone⟩)
        · refine ⟨key, List.mem_cons_self, hd, List.forall_mem_cons.mpr ⟨?_, fun k' hk' h => ?_⟩⟩
          · exact fun h => absurd h (hirrefl key)
          · exact absurd h (hkey k' hk')
        · exact ⟨k, List.mem_cons_of_mem _ hk, hd, List.forall_mem_cons.mpr ⟨fun _ => hnone, hleast⟩⟩
      · rintro ⟨k, hk, hd, hleast⟩
        obtain ⟨hnone, hleast⟩ := List.forall_mem_cons.mp hleast
        rcases List.mem_cons.mp hk with rfl | hk'
        · exact .inl hd
        · by_cases hlt : lt key k
          · exact .inr ⟨⟨k, hk', hd, hleast⟩, hnone hlt⟩
          · left
            rwa [hsame key List.mem_cons_self k hk hlt (hkey k hk')]

/-- What is reported of a source, if it can be scanned. -/
def declared (fs : FileSystem) (here : Location) (origin : Path) : List Declaration :=
  (scanFile fs here origin).2.toOption.getD []

/-- What is reported of the sources below a root. -/
def declaredUnder (fs : FileSystem) (here : Location) (root : Path) : List Declaration :=
  match fs.isDirectory here root with
  | .ok true =>
      (sourcesBelow fs (directoryAt fs here root)).flatMap fun names =>
        declared fs here (pathBelow root names)
  | _ => []

/-- A root that is no directory has no sources. -/
theorem declaredUnder_of_not {root : Path} (h : fs.isDirectory here root ≠ .ok true) :
    declaredUnder fs here root = [] := by
  unfold declaredUnder
  split
  · next hroot => exact absurd hroot h
  · rfl

theorem Reports.declared_eq {origin : Path} {ds : List Declaration} (h : Reports fs here origin ds) :
    declared fs here origin = ds := by
  rw [declared, scanFile_eq_ok_iff.mpr h]
  rfl

theorem ReportsUnder.declaredUnder_eq {root : Path} {ds : List Declaration}
    (h : ReportsUnder fs here root ds) : declaredUnder fs here root = ds := by
  cases h with
  | missing h => rw [declaredUnder, h]
  | sources h hparts =>
      rw [declaredUnder, h]
      dsimp only
      generalize sourcesBelow fs (directoryAt fs here root) = sources at hparts
      induction hparts with
      | nil => rfl
      | cons hfile _ ih => rw [List.flatMap_cons, hfile.declared_eq, ih, List.flatten_cons]

/-- **A discovery returns if each root can be scanned**, and then the union of what is reported of them. -/
theorem discover_eq_ok_iff_declaredUnder {roots : List Path} {ds : List Declaration} :
    (discover fs here roots).2 = .ok ds ↔
      (∀ root ∈ roots, ReportsUnder fs here root (declaredUnder fs here root)) ∧
        ds = united (roots.flatMap (declaredUnder fs here)) := by
  rw [discover_eq_ok_iff]
  constructor
  · rintro ⟨parts, hparts, rfl⟩
    have hroots : (∀ root ∈ roots, ReportsUnder fs here root (declaredUnder fs here root)) ∧
        parts = roots.map (declaredUnder fs here) := by
      induction hparts with
      | nil => exact ⟨fun _ h => (by cases h), rfl⟩
      | cons hroot _ ih =>
          refine ⟨List.forall_mem_cons.mpr ⟨?_, ih.1⟩, ?_⟩
          · rwa [hroot.declaredUnder_eq]
          · rw [List.map_cons, hroot.declaredUnder_eq, ← ih.2]
    exact ⟨hroots.1, by rw [hroots.2, List.flatMap_def]⟩
  · rintro ⟨hroots, rfl⟩
    refine ⟨roots.map (declaredUnder fs here), ?_, by rw [List.flatMap_def]⟩
    exact List.forall₂_map_right_iff.mpr (List.forall₂_same.mpr hroots)

theorem getElem?_declared_iff {origin : Path} {k : Nat} {d : Declaration} :
    (declared fs here origin)[k]? = some d ↔
      ∃ found, Reports fs here origin found ∧ found[k]? = some d := by
  constructor
  · intro h
    cases hscanned : (scanFile fs here origin).2 with
    | error f =>
        rw [declared, hscanned] at h
        cases h
    | ok found =>
        have hfound := scanFile_eq_ok_iff.mp hscanned
        exact ⟨found, hfound, hfound.declared_eq ▸ h⟩
  · rintro ⟨found, hfound, hd⟩
    rwa [hfound.declared_eq]

theorem mem_declaredUnder_iff {root : Path} {d : Declaration} : d ∈ declaredUnder fs here root ↔
    ∃ names, IsSource fs here root names ∧ d ∈ declared fs here (pathBelow root names) := by
  by_cases hroot : fs.isDirectory here root = .ok true
  · rw [declaredUnder, hroot]
    simp only [List.mem_flatMap, mem_sourcesBelow_iff hroot]
  · rw [declaredUnder_of_not hroot]
    refine ⟨fun h => (by cases h), ?_⟩
    rintro ⟨_, h, -⟩
    exact absurd h.isDirectory hroot

/-- Of the declarations below a root, the first of each name is the first in its source, and no source
before it has its name. -/
theorem mem_firstOfEach_declaredUnder_iff {root : Path} {d : Declaration} :
    d ∈ firstOfEach (declaredUnder fs here root) ↔
      ∃ names, IsSource fs here root names ∧
        d ∈ firstOfEach (declared fs here (pathBelow root names)) ∧
        ∀ names' < names, IsSource fs here root names' →
          ∀ e ∈ declared fs here (pathBelow root names'), e.name ≠ d.name := by
  by_cases hroot : fs.isDirectory here root = .ok true
  · rw [declaredUnder, hroot]
    dsimp only
    rw [mem_firstOfEach_flatMap_iff (· < ·) (fun _ => lt_irrefl _) (pairwise_sourcesBelow _ _)
      (fun a _ b _ hab hba => by rw [le_antisymm (not_lt.mp hba) (not_lt.mp hab)])]
    simp only [mem_sourcesBelow_iff hroot]
    constructor
    · rintro ⟨names, hnames, hd, hleast⟩
      exact ⟨names, hnames, hd, fun names' hlt hsource => hleast names' hsource hlt⟩
    · rintro ⟨names, hnames, hd, hleast⟩
      exact ⟨names, hnames, hd, fun names' hsource hlt => hleast names' hlt hsource⟩
  · rw [declaredUnder_of_not hroot]
    refine ⟨fun h => (by cases h), ?_⟩
    rintro ⟨_, h, -⟩
    exact absurd h.isDirectory hroot

/-- Of the declarations below several roots, the first of each name is the first below its root, and no root
before it has its name. -/
theorem mem_firstOfEach_roots_iff {f : Path → List Declaration} {roots : List Path} {d : Declaration} :
    d ∈ firstOfEach (roots.flatMap f) ↔
      ∃ (i : Nat) (root : Path), roots[i]? = some root ∧ d ∈ firstOfEach (f root) ∧
        ∀ j < i, ∀ root', roots[j]? = some root' → ∀ e ∈ f root', e.name ≠ d.name := by
  have hnumbered : roots.flatMap f = roots.zipIdx.flatMap fun root => f root.1 := by
    conv_lhs => rw [← List.zipIdx_map_fst 0 roots, List.flatMap_map]
  have hsorted : roots.zipIdx.Pairwise fun a b => ¬b.2 < a.2 := by
    have hindices : (roots.zipIdx.map (·.2)).Pairwise (· < ·) := by
      rw [List.zipIdx_map_snd]
      exact List.pairwise_lt_range'
    exact (List.pairwise_map.mp hindices).imp fun h => Nat.lt_asymm h
  rw [hnumbered, mem_firstOfEach_flatMap_iff (fun a b => a.2 < b.2) (fun _ => Nat.lt_irrefl _) hsorted]
  · constructor
    · rintro ⟨⟨root, i⟩, hroot, hd, hleast⟩
      refine ⟨i, root, List.mem_zipIdx_iff_getElem?.mp hroot, hd, fun j hj root' hroot' => ?_⟩
      exact hleast (root', j) (List.mem_zipIdx_iff_getElem?.mpr hroot') hj
    · rintro ⟨i, root, hroot, hd, hleast⟩
      refine ⟨(root, i), List.mem_zipIdx_iff_getElem?.mpr hroot, hd, fun ⟨root', j⟩ hroot' hj => ?_⟩
      exact hleast j hj root' (List.mem_zipIdx_iff_getElem?.mp hroot')
  · rintro ⟨a, i⟩ ha ⟨b, j⟩ hb hij hji
    obtain rfl : i = j := Nat.le_antisymm (Nat.not_lt.mp hji) (Nat.not_lt.mp hij)
    rw [List.mem_zipIdx_iff_getElem?] at ha hb
    rw [Option.some.inj (ha.symm.trans hb)]

end TextProviders.Discovery
