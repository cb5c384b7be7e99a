import TextProviders.Proofs.Source.Header

/-!
# Which members the marker may have

The members of the marker are read one after the other, up to the first that is at fault.  A member is
one of two kinds (`Member`), and lists of members have a grammar of their own (`AreWritten`): separated by
commas, with blanks around every part, and perhaps one more comma behind the last member.

A text that is not blank starts with a member of the grammar exactly if that member is taken from it, with
its key and its value, up to the comma behind it (`areWritten_iff`).  For a literal this is so although all
that stands before the next comma is a value too: a literal with a comma in it is taken whole, and one that
is not followed by a comma or the end is no value that may stand there.  What is left is shorter each time
(`memberAt?_eq_some`), so the text is read to its end.

The main statement, `parseMembers_accepts_exactly`, is that what is accepted is the grammar, and that of
each kind the last member counts.
-/

namespace TextProviders.Source

/-! ## The grammar -/

/-- What may stand between the quotes of a literal, line ends included: no quote, and a backslash only
with the character that it takes with it, which is no line end. -/
inductive LiteralText : List Char → Prop
  | nil : LiteralText []
  | plain {c : Char} {rest : List Char} :
      c ≠ '"' → c ≠ '\\' → LiteralText rest → LiteralText (c :: rest)
  | pair {c : Char} {rest : List Char} : c ≠ '\n' → LiteralText rest → LiteralText ('\\' :: c :: rest)

/-- Nothing but blanks. -/
def AreBlank (s : List Char) : Prop :=
  ∀ c ∈ s, Text.isBlank c = true

/-- A member of the marker. -/
inductive Member where
  /-- The extension, as it stands between the quotes. -/
  | extension (contents : List Char)
  | flag (value : Bool)
deriving DecidableEq, Repr

namespace Member

def key : Member → List Char
  | extension _ => "fileExtension".toList
  | flag _ => "normalizeSpace".toList

/-- The value of a member, as it is written. -/
def value : Member → List Char
  | extension contents => '"' :: contents ++ ['"']
  | flag true => "true".toList
  | flag false => "false".toList

/-- An extension is between its quotes what may stand there. -/
def IsFormed : Member → Prop
  | extension contents => LiteralText contents
  | flag _ => True

/-- A member as it may be written, with blanks around every part. -/
inductive IsWritten (m : Member) : List Char → Prop
  | mk {before behind front after : List Char} (hbefore : AreBlank before) (hbehind : AreBlank behind)
      (hfront : AreBlank front) (hafter : AreBlank after) (hformed : m.IsFormed) :
      IsWritten m (before ++ (m.key ++ (behind ++ '=' :: (front ++ (m.value ++ after)))))

def extension? : Member → Option (List Char)
  | extension contents => some contents
  | flag _ => none

def flag? : Member → Option Bool
  | extension _ => none
  | flag value => some value

/-- A binding with a member added, which takes the place of an earlier one of its kind. -/
def addTo (b : Binding) : Member → Binding
  | extension contents => { b with fileExtension := some (String.ofList contents) }
  | flag value => { b with normalizeSpace := value }

end Member

/-- Members as they may be written: separated by commas, and perhaps one more behind the last. -/
inductive AreWritten : List Member → List Char → Prop
  | none {s : List Char} (h : AreBlank s) : AreWritten [] s
  | last {m : Member} {s : List Char} (h : m.IsWritten s) : AreWritten [m] s
  | more {m : Member} {ms : List Member} {s t : List Char} (h : m.IsWritten s) (ht : AreWritten ms t) :
      AreWritten (m :: ms) (s ++ ',' :: t)

/-- The binding that members state: of each kind the last one counts. -/
def bindingOf (ms : List Member) : Binding where
  fileExtension := some (((ms.filterMap Member.extension?).getLast?.map String.ofList).getD "txt")
  normalizeSpace := (ms.filterMap Member.flag?).getLast?.getD false

theorem foldl_addTo (ms : List Member) : ms.foldl Member.addTo {} = bindingOf ms := by
  induction ms using List.reverseRecOn with
  | nil => rfl
  | append_singleton ms m ih =>
      rw [List.foldl_concat, ih]
      cases m with
      | extension contents => simp [Member.addTo, bindingOf, Member.extension?, Member.flag?]
      | flag value => simp [Member.addTo, bindingOf, Member.extension?, Member.flag?]

/-! ## Blanks -/

section

variable {s t : List Char}

theorem AreBlank.append (hs : AreBlank s) (ht : AreBlank t) : AreBlank (s ++ t) :=
  List.forall_mem_append.mpr ⟨hs, ht⟩

theorem AreBlank.not_mem (hs : AreBlank s) {c : Char} (hc : Text.isBlank c = false) : c ∉ s :=
  fun hmem => Bool.false_ne_true (hc.symm.trans (hs c hmem))

theorem all_isBlank_iff : s.all Text.isBlank = true ↔ AreBlank s :=
  List.all_eq_true

/-- Blanks are passed over up to what is none. -/
theorem trimStart_append (hs : AreBlank s) (ht : ∀ c ∈ t.head?, Text.isBlank c = false) :
    Text.trimStart (s ++ t) = t := by
  rw [Text.trimStart, List.dropWhile_append_of_pos hs]
  cases t with
  | nil => rfl
  | cons c t => exact List.dropWhile_cons_of_neg (by simp [ht c rfl])

theorem exists_trimStart (s : List Char) : ∃ blanks, AreBlank blanks ∧ s = blanks ++ Text.trimStart s :=
  ⟨s.takeWhile Text.isBlank, List.all_eq_true.mp List.all_takeWhile, List.takeWhile_append_dropWhile.symm⟩

theorem exists_trimEnd (s : List Char) : ∃ blanks, AreBlank blanks ∧ s = Text.trimEnd s ++ blanks := by
  obtain ⟨blanks, hblanks, hparts⟩ := exists_trimStart s.reverse
  refine ⟨blanks.reverse, fun c hc => hblanks c (List.mem_reverse.mp hc), ?_⟩
  rw [Text.trimEnd, ← List.reverse_append]
  exact List.reverse_eq_iff.mp hparts

/-- Blanks at the end are dropped back to what is none. -/
theorem trimEnd_append (ht : AreBlank t) (hs : ∀ c ∈ s.getLast?, Text.isBlank c = false) :
    Text.trimEnd (s ++ t) = s := by
  have hblank : AreBlank t.reverse := fun c hc => ht c (List.mem_reverse.mp hc)
  have htrimmed : (t.reverse ++ s.reverse).dropWhile Text.isBlank = s.reverse :=
    trimStart_append hblank (by rwa [List.head?_reverse])
  rw [Text.trimEnd, List.reverse_append, htrimmed, List.reverse_reverse]

end

/-! ## Literals -/

theorem literalBody?_pair (c : Char) (rest : List Char) :
    literalBody? ('\\' :: c :: rest) =
      if c = '\n' then none
      else (literalBody? rest).map fun (body, after) => ('\\' :: c :: body, after) := rfl

theorem literalBody?_plain {c : Char} (hback : c ≠ '\\') (rest : List Char) :
    literalBody? (c :: rest) =
      if c = '"' then some ([], rest)
      else (literalBody? rest).map fun (body, after) => (c :: body, after) := by
  rw [literalBody?.eq_3 _ _ fun _ _ hc _ => hback hc, if_neg hback]

/-- **A literal is found up to its closing quote**, and nothing else is found. -/
theorem literalBody?_eq_some_iff {s body after : List Char} :
    literalBody? s = some (body, after) ↔ LiteralText body ∧ s = body ++ '"' :: after := by
  constructor
  · intro h
    fun_induction literalBody? s generalizing body with
    | case1 => cases h
    | case2 rest => cases h
    | case3 c rest hline ih =>
        obtain ⟨⟨body', after'⟩, hrest, hpair⟩ := Option.map_eq_some_iff.mp h
        obtain ⟨rfl, rfl⟩ := Prod.mk.inj hpair
        obtain ⟨hbody, rfl⟩ := ih hrest
        exact ⟨.pair hline hbody, rfl⟩
    | case4 rest =>
        obtain ⟨rfl, rfl⟩ := Prod.mk.inj (Option.some.inj h)
        exact ⟨.nil, rfl⟩
    | case5 rest => cases h
    | case6 c rest hpair hquote hback ih =>
        obtain ⟨⟨body', after'⟩, hrest, hpair⟩ := Option.map_eq_some_iff.mp h
        obtain ⟨rfl, rfl⟩ := Prod.mk.inj hpair
        obtain ⟨hbody, rfl⟩ := ih hrest
        exact ⟨.plain hquote hback hbody, rfl⟩
  · rintro ⟨hbody, rfl⟩
    induction hbody with
    | nil => rfl
    | @plain c rest hquote hback _ ih =>
        rw [List.cons_append, literalBody?_plain hback, if_neg hquote, ih]
        rfl
    | @pair c rest hline _ ih =>
        rw [List.cons_append, List.cons_append, literalBody?_pair, if_neg hline, ih]
        rfl

theorem literalContents?_eq_some_iff {s contents : List Char} :
    literalContents? s = some contents ↔ LiteralText contents ∧ s = '"' :: contents ++ ['"'] := by
  constructor
  · intro h
    unfold literalContents? at h
    split at h
    · next rest =>
      split at h
      · next body hbody =>
        obtain rfl := Option.some.inj h
        obtain ⟨htext, rfl⟩ := literalBody?_eq_some_iff.mp hbody
        exact ⟨htext, rfl⟩
      · cases h
    · cases h
  · rintro ⟨htext, rfl⟩
    have hbody : literalBody? (contents ++ ['"']) = some (contents, []) :=
      literalBody?_eq_some_iff.mpr ⟨htext, rfl⟩
    rw [List.cons_append, literalContents?, hbody]

/-! ## Values -/

/-- What stands behind a member: nothing, or a comma and what follows it. -/
def Follows (behind next : List Char) : Prop :=
  (behind = [] ∧ next = []) ∨ behind = ',' :: next

theorem Follows.isBlank_head? {behind next : List Char} (h : Follows behind next) :
    ∀ c ∈ behind.head?, Text.isBlank c = false := by
  rcases h with ⟨rfl, -⟩ | rfl
  · exact fun c hc => (by cases hc)
  · rintro c hc
    obtain rfl := Option.some.inj hc
    decide

theorem afterValue?_eq_some_iff {s next : List Char} :
    afterValue? s = some next ↔ ∃ blanks behind, AreBlank blanks ∧ Follows behind next ∧
      s = blanks ++ behind := by
  constructor
  · intro h
    obtain ⟨blanks, hblanks, hparts⟩ := exists_trimStart s
    unfold afterValue? at h
    split at h
    · next htrim =>
      obtain rfl := Option.some.inj h
      exact ⟨blanks, [], hblanks, .inl ⟨rfl, rfl⟩, by rw [← htrim]; exact hparts⟩
    · next rest htrim =>
      obtain rfl := Option.some.inj h
      exact ⟨blanks, ',' :: rest, hblanks, .inr rfl, by rw [← htrim]; exact hparts⟩
    · cases h
  · rintro ⟨blanks, behind, hblanks, hfollows, rfl⟩
    rw [afterValue?, trimStart_append hblanks hfollows.isBlank_head?]
    rcases hfollows with ⟨rfl, rfl⟩ | rfl
    · rfl
    · rfl

/-- A literal is taken if nothing but blanks stands between it and the comma or the end. -/
theorem literalValue?_eq_some_iff {s value next : List Char} :
    literalValue? s = some (value, next) ↔ ∃ contents blanks behind, LiteralText contents ∧
      value = '"' :: contents ++ ['"'] ∧ AreBlank blanks ∧ Follows behind next ∧
      s = value ++ (blanks ++ behind) := by
  constructor
  · intro h
    unfold literalValue? at h
    split at h
    · next rest =>
      split at h
      · cases h
      · next body after hbody =>
        obtain ⟨next', hnext, hpair⟩ := Option.map_eq_some_iff.mp h
        obtain ⟨rfl, rfl⟩ := Prod.mk.inj hpair
        obtain ⟨htext, rfl⟩ := literalBody?_eq_some_iff.mp hbody
        obtain ⟨blanks, behind, hblanks, hfollows, rfl⟩ := afterValue?_eq_some_iff.mp hnext
        exact ⟨body, blanks, behind, htext, rfl, hblanks, hfollows, by simp⟩
    · cases h
  · rintro ⟨contents, blanks, behind, htext, rfl, hblanks, hfollows, rfl⟩
    have hbody : literalBody? (contents ++ '"' :: (blanks ++ behind)) =
        some (contents, blanks ++ behind) := literalBody?_eq_some_iff.mpr ⟨htext, rfl⟩
    have hnext : afterValue? (blanks ++ behind) = some next :=
      afterValue?_eq_some_iff.mpr ⟨blanks, behind, hblanks, hfollows, rfl⟩
    have hparts : '"' :: contents ++ ['"'] ++ (blanks ++ behind) =
        '"' :: (contents ++ '"' :: (blanks ++ behind)) := by simp
    rw [hparts, literalValue?, hbody]
    dsimp only
    rw [hnext]
    rfl

/-- What stands before the next comma is a value, and the blanks before the comma. -/
theorem exists_plainValue (s : List Char) : ∃ blanks behind, AreBlank blanks ∧
    Follows behind (plainValue s).2 ∧ s = (plainValue s).1 ++ (blanks ++ behind) := by
  obtain ⟨blanks, hblanks, hparts⟩ := exists_trimEnd (s.takeWhile (· ≠ ','))
  refine ⟨blanks, s.dropWhile (· ≠ ','), hblanks, ?_, ?_⟩
  · cases hdrop : s.dropWhile (· ≠ ',') with
    | nil => exact .inl ⟨rfl, by rw [plainValue, hdrop]; rfl⟩
    | cons c rest =>
        obtain rfl : c = ',' := by
          have hc := List.head?_dropWhile_not (· ≠ ',') s
          rw [hdrop] at hc
          simpa using hc
        exact .inr (by rw [plainValue, hdrop]; rfl)
  · rw [plainValue, ← List.append_assoc, ← hparts]
    exact List.takeWhile_append_dropWhile.symm

/-- A value without a comma that does not end in a blank is taken as it is. -/
theorem plainValue_append {value blanks behind next : List Char} (hcomma : ',' ∉ value)
    (hend : ∀ c ∈ value.getLast?, Text.isBlank c = false) (hblanks : AreBlank blanks)
    (hfollows : Follows behind next) : plainValue (value ++ (blanks ++ behind)) = (value, next) := by
  have hbefore : ∀ c ∈ value ++ blanks, decide (c ≠ ',') = true := by
    intro c hc
    refine decide_eq_true fun heq => ?_
    rcases List.mem_append.mp hc with hc | hc
    · exact hcomma (heq ▸ hc)
    · exact hblanks.not_mem (by decide) (heq ▸ hc)
  have hstop : behind.takeWhile (· ≠ ',') = [] ∧ (behind.dropWhile (· ≠ ',')).drop 1 = next := by
    rcases hfollows with ⟨rfl, rfl⟩ | rfl
    · exact ⟨rfl, rfl⟩
    · exact ⟨rfl, rfl⟩
  rw [plainValue, ← List.append_assoc, List.takeWhile_append_of_pos hbefore,
    List.dropWhile_append_of_pos hbefore, hstop.1, hstop.2, List.append_nil, trimEnd_append hblanks hend]

/-- A value of either form, and the blanks before the comma or the end. -/
theorem exists_value (s : List Char) : ∃ blanks behind, AreBlank blanks ∧
    Follows behind ((literalValue? s).getD (plainValue s)).2 ∧
    s = ((literalValue? s).getD (plainValue s)).1 ++ (blanks ++ behind) := by
  cases hliteral : literalValue? s with
  | none => exact exists_plainValue s
  | some found =>
      obtain ⟨-, blanks, behind, -, -, hblanks, hfollows, hparts⟩ := literalValue?_eq_some_iff.mp hliteral
      exact ⟨blanks, behind, hblanks, hfollows, hparts⟩

/-! ## One member -/

/-- **What is taken of a text is a member and what may stand behind it**: a key, an equals sign and a
value, with blanks around each. -/
theorem memberAt?_eq_some {s key value next : List Char} (h : memberAt? s = some (key, value, next)) :
    ∃ before between front after behind, AreBlank before ∧ AreBlank between ∧ AreBlank front ∧
      AreBlank after ∧ Follows behind next ∧
      s = before ++ (key ++ (between ++ '=' :: (front ++ (value ++ (after ++ behind))))) := by
  obtain ⟨before, hbefore, hs⟩ := exists_trimStart s
  unfold memberAt? at h
  dsimp only at h
  generalize Text.trimStart s = t at h hs
  split at h
  · cases h
  · have hsplit : t = t.takeWhile Text.isWord ++ t.drop (t.takeWhile Text.isWord).length := by
      have hkey := List.prefix_iff_eq_take.mp (List.takeWhile_prefix (l := t) Text.isWord)
      have hparts := List.take_append_drop (t.takeWhile Text.isWord).length t
      rw [← hkey] at hparts
      exact hparts.symm
    obtain ⟨between, hbetween, hrest⟩ := exists_trimStart (t.drop (t.takeWhile Text.isWord).length)
    generalize t.drop (t.takeWhile Text.isWord).length = u at h hsplit hrest
    split at h
    · next rest htrim =>
      obtain ⟨front, hfront, hvalued⟩ := exists_trimStart rest
      obtain ⟨after, behind, hafter, hfollows, hvalue⟩ := exists_value (Text.trimStart rest)
      obtain ⟨hkey, hpair⟩ := Prod.mk.inj (Option.some.inj h)
      obtain ⟨rfl, rfl⟩ := Prod.mk.inj hpair
      refine ⟨before, between, front, after, behind, hbefore, hbetween, hfront, hafter, hfollows, ?_⟩
      rw [← hvalue, ← hvalued, ← htrim, ← hrest, ← hkey, ← hsplit]
      exact hs
    · cases h

/-- What is left behind a member is shorter. -/
theorem exists_taken_of_memberAt? {s key value next : List Char}
    (h : memberAt? s = some (key, value, next)) : ∃ taken, taken ≠ [] ∧ s = taken ++ next := by
  obtain ⟨before, between, front, after, behind, -, -, -, -, hfollows, rfl⟩ := memberAt?_eq_some h
  rcases hfollows with ⟨rfl, rfl⟩ | rfl
  · exact ⟨_, by simp, (List.append_nil _).symm⟩
  · refine ⟨before ++ (key ++ (between ++ '=' :: (front ++ (value ++ (after ++ [',']))))), by simp, ?_⟩
    simp

theorem length_lt_of_memberAt? {s key value next : List Char}
    (h : memberAt? s = some (key, value, next)) : next.length < s.length := by
  obtain ⟨taken, htaken, rfl⟩ := exists_taken_of_memberAt? h
  have hpos : 0 < taken.length := List.length_pos_of_ne_nil htaken
  rw [List.length_append]
  omega

/-- A key is a word, and taken up to what follows it. -/
theorem memberAt?_of_key {key before between : List Char} (hkey : key ≠ [])
    (hword : ∀ c ∈ key, Text.isWord c = true) (hbefore : AreBlank before) (hbetween : AreBlank between)
    (rest : List Char) :
    memberAt? (before ++ (key ++ (between ++ '=' :: rest))) =
      some (key, (literalValue? (Text.trimStart rest)).getD (plainValue (Text.trimStart rest))) := by
  have hstart : Text.trimStart (before ++ (key ++ (between ++ '=' :: rest))) =
      key ++ (between ++ '=' :: rest) := by
    refine trimStart_append hbefore fun c hc => ?_
    rw [List.head?_append_of_ne_nil _ hkey] at hc
    exact isBlank_of_isWord (hword c (List.mem_of_head? hc))
  have hequals : Text.trimStart (between ++ '=' :: rest) = '=' :: rest := by
    refine trimStart_append hbetween fun c hc => ?_
    obtain rfl := Option.some.inj hc
    decide
  have htaken : (key ++ (between ++ '=' :: rest)).takeWhile Text.isWord = key := by
    have hstop : (between ++ '=' :: rest).takeWhile Text.isWord = [] := by
      cases between with
      | nil => rfl
      | cons c between =>
          have hc : Text.isWord c ≠ true := fun hc =>
            Bool.false_ne_true ((isBlank_of_isWord hc).symm.trans (hbetween c List.mem_cons_self))
          exact List.takeWhile_cons_of_neg hc
    rw [List.takeWhile_append_of_pos hword, hstop, List.append_nil]
  unfold memberAt?
  dsimp only
  rw [hstart, htaken, List.drop_left, hequals, if_neg (by simpa using hkey)]
  rfl

namespace Member

theorem isWord_key (m : Member) : m.key ≠ [] ∧ ∀ c ∈ m.key, Text.isWord c = true := by
  have hextension : "fileExtension".toList ≠ [] ∧ ∀ c ∈ "fileExtension".toList, Text.isWord c = true := by
    decide
  have hflag : "normalizeSpace".toList ≠ [] ∧ ∀ c ∈ "normalizeSpace".toList, Text.isWord c = true := by
    decide
  cases m with
  | extension contents => exact hextension
  | flag value => exact hflag

/-- No value starts with a blank, and that of a flag does not end with one either. -/
theorem isBlank_value (m : Member) : ∀ c rest, m.value = c :: rest → Text.isBlank c = false := by
  intro c rest h
  match m with
  | extension contents => exact (List.cons.inj h).1 ▸ rfl
  | flag true => exact (List.cons.inj h).1 ▸ rfl
  | flag false => exact (List.cons.inj h).1 ▸ rfl

theorem value_ne_nil (m : Member) : m.value ≠ [] := by
  match m with
  | extension contents => exact List.cons_ne_nil _ _
  | flag true => exact List.cons_ne_nil _ _
  | flag false => exact List.cons_ne_nil _ _

/-- The value of a member is read as it is written. -/
theorem read_value {m : Member} (hm : m.IsFormed) {after behind next : List Char}
    (hafter : AreBlank after) (hfollows : Follows behind next) :
    (literalValue? (m.value ++ (after ++ behind))).getD (plainValue (m.value ++ (after ++ behind))) =
      (m.value, next) := by
  have hplain : ∀ value, ',' ∉ (flag value).value ∧
      ∀ c ∈ (flag value).value.getLast?.toList, Text.isBlank c = false := by decide
  cases m with
  | extension contents =>
      have hliteral : literalValue? ((extension contents).value ++ (after ++ behind)) =
          some ((extension contents).value, next) :=
        literalValue?_eq_some_iff.mpr ⟨contents, after, behind, hm, rfl, hafter, hfollows, rfl⟩
      rw [hliteral]
      rfl
  | flag value =>
      have hnone : literalValue? ((flag value).value ++ (after ++ behind)) = none := by
        cases value with
        | false => rfl
        | true => rfl
      obtain ⟨hcomma, hend⟩ := hplain value
      rw [hnone]
      exact plainValue_append hcomma (fun c hc => hend c (Option.mem_toList.mpr hc)) hafter hfollows

/-- **A member is taken as it is written**, up to the comma behind it. -/
theorem IsWritten.memberAt? {m : Member} {s behind next : List Char} (hs : m.IsWritten s)
    (hfollows : Follows behind next) : memberAt? (s ++ behind) = some (m.key, m.value, next) := by
  obtain ⟨hbefore, hbetween, hfront, hafter, hformed⟩ := hs
  next before between front after =>
  obtain ⟨hkey, hword⟩ := m.isWord_key
  have hvalue : Text.trimStart (front ++ (m.value ++ (after ++ behind))) =
      m.value ++ (after ++ behind) := by
    refine trimStart_append hfront fun c hc => ?_
    obtain ⟨d, rest, hparts⟩ := List.exists_cons_of_ne_nil m.value_ne_nil
    rw [hparts] at hc
    obtain rfl := Option.some.inj hc
    exact m.isBlank_value _ rest hparts
  have htaken := memberAt?_of_key hkey hword hbefore hbetween (front ++ (m.value ++ (after ++ behind)))
  rw [hvalue, read_value hformed hafter hfollows] at htaken
  simpa only [List.append_assoc, List.cons_append] using htaken

end Member


theorem Member.IsWritten.not_areBlank {m : Member} {s : List Char} (hs : m.IsWritten s) : ¬AreBlank s := by
  obtain ⟨-, -, -, -, -⟩ := hs
  exact fun hblank => absurd (hblank '=' (by simp)) (by decide)

/-- A member of the grammar is added, and nothing else is. -/
theorem addMember_eq_ok_iff {b b' : Binding} {key value : List Char} :
    addMember b key value = .ok b' ↔
      ∃ m : Member, m.IsFormed ∧ key = m.key ∧ value = m.value ∧ b' = m.addTo b := by
  constructor
  · intro h
    unfold addMember at h
    split at h
    · next hkey =>
      split at h
      · cases h
      · next contents hcontents =>
        obtain ⟨htext, hvalue⟩ := literalContents?_eq_some_iff.mp hcontents
        exact ⟨.extension contents, htext, hkey, hvalue, (Except.ok.inj h).symm⟩
    · split at h
      · next hkey =>
        split at h
        · next hvalue => exact ⟨.flag true, trivial, hkey, hvalue, (Except.ok.inj h).symm⟩
        · split at h
          · next hvalue => exact ⟨.flag false, trivial, hkey, hvalue, (Except.ok.inj h).symm⟩
          · cases h
      · cases h
  · rintro ⟨m, hformed, rfl, rfl, rfl⟩
    have hflag : addMember b "normalizeSpace".toList = fun value =>
        if value = "true".toList then .ok { b with normalizeSpace := true }
        else if value = "false".toList then .ok { b with normalizeSpace := false }
        else .error (.flagNotBoolean (String.ofList value)) := by
      have hkey : "normalizeSpace".toList ≠ "fileExtension".toList := by decide
      exact funext fun value => (if_neg hkey).trans (if_pos rfl)
    cases m with
    | extension contents =>
        have hcontents : literalContents? (Member.extension contents).value = some contents :=
          literalContents?_eq_some_iff.mpr ⟨hformed, rfl⟩
        refine (if_pos rfl).trans ?_
        rw [hcontents]
        rfl
    | flag value =>
        cases value with
        | true => exact (congrFun hflag _).trans (if_pos rfl)
        | false =>
            have hvalue : "false".toList ≠ "true".toList := by decide
            exact (congrFun hflag _).trans ((if_neg hvalue).trans (if_pos rfl))

/-! ## All members -/

/-- A text that is blank lists no member. -/
theorem areWritten_of_areBlank {ms : List Member} {s : List Char} (hs : AreBlank s) :
    AreWritten ms s ↔ ms = [] := by
  constructor
  · intro h
    cases h with
    | none _ => rfl
    | last h => exact absurd hs h.not_areBlank
    | more h _ => exact absurd (hs ',' (by simp)) (by decide)
  · rintro rfl
    exact .none hs

/-- **The first member of a list is the one that is taken**: a text that is not blank lists members if a
member of the grammar is taken from it and what is left lists the others. -/
theorem areWritten_iff {ms : List Member} {s : List Char} (hs : ¬AreBlank s) :
    AreWritten ms s ↔ ∃ m ms' next, ms = m :: ms' ∧ m.IsFormed ∧
      memberAt? s = some (m.key, m.value, next) ∧ AreWritten ms' next := by
  constructor
  · intro h
    cases h with
    | none hblank => exact absurd hblank hs
    | @last m s h =>
        have hformed : m.IsFormed := by
          obtain ⟨-, -, -, -, hformed⟩ := h
          exact hformed
        have htaken := h.memberAt? (.inl ⟨rfl, rfl⟩)
        rw [List.append_nil] at htaken
        exact ⟨m, [], [], rfl, hformed, htaken, .none fun c hc => (by cases hc)⟩
    | @more m ms s t h ht =>
        have hformed : m.IsFormed := by
          obtain ⟨-, -, -, -, hformed⟩ := h
          exact hformed
        exact ⟨m, ms, t, rfl, hformed, h.memberAt? (.inr rfl), ht⟩
  · rintro ⟨m, ms', next, rfl, hformed, htaken, hrest⟩
    obtain ⟨before, between, front, after, behind, hbefore, hbetween, hfront, hafter, hfollows, rfl⟩ :=
      memberAt?_eq_some htaken
    have hwritten : m.IsWritten (before ++ (m.key ++ (between ++ '=' :: (front ++ (m.value ++ after))))) :=
      .mk hbefore hbetween hfront hafter hformed
    rcases hfollows with ⟨rfl, rfl⟩ | rfl
    · obtain rfl := (areWritten_of_areBlank fun c hc => (by cases hc)).mp hrest
      simpa using AreWritten.last hwritten
    · simpa using AreWritten.more hwritten hrest

section

variable (all : List Char) {count : Nat} {s : List Char} {b b' : Binding}

theorem addMembers_of_areBlank (hs : AreBlank s) : addMembers all count s b = .ok b := by
  cases count with
  | zero => rfl
  | succ count => rw [addMembers, if_pos (all_isBlank_iff.mpr hs)]

/-- One round takes one member, and the text behind it is left to the others. -/
theorem addMembers_succ_eq_ok_iff (hs : ¬AreBlank s) :
    addMembers all (count + 1) s b = .ok b' ↔ ∃ key value next, memberAt? s = some (key, value, next) ∧
      ∃ b₁, addMember b key value = .ok b₁ ∧ addMembers all count next b₁ = .ok b' := by
  rw [addMembers, if_neg fun h => hs (all_isBlank_iff.mp h)]
  constructor
  · intro h
    split at h
    · cases h
    · next key value next htaken =>
      split at h
      · cases h
      · next b₁ hadded => exact ⟨key, value, next, htaken, b₁, hadded, h⟩
  · rintro ⟨key, value, next, htaken, b₁, hadded, hrest⟩
    rw [htaken]
    dsimp only
    rw [hadded]
    exact hrest

/-- **What a whole run adds are the members that the text lists**, if there is a round for each character
and one more. -/
theorem addMembers_eq_ok_iff (hcount : s.length < count) :
    addMembers all count s b = .ok b' ↔ ∃ ms, AreWritten ms s ∧ b' = ms.foldl Member.addTo b := by
  induction count generalizing s b with
  | zero => exact absurd hcount (Nat.not_lt_zero _)
  | succ count ih =>
      by_cases hblank : AreBlank s
      · rw [addMembers_of_areBlank all hblank]
        constructor
        · intro h
          exact ⟨[], .none hblank, (Except.ok.inj h).symm⟩
        · rintro ⟨ms, hms, rfl⟩
          rw [(areWritten_of_areBlank hblank).mp hms]
          rfl
      · have hleft {key value next} (htaken : memberAt? s = some (key, value, next)) :
            next.length < count :=
          Nat.lt_of_lt_of_le (length_lt_of_memberAt? htaken) (Nat.le_of_lt_succ hcount)
        rw [addMembers_succ_eq_ok_iff all hblank]
        constructor
        · rintro ⟨key, value, next, htaken, b₁, hadded, hrest⟩
          obtain ⟨m, hformed, rfl, rfl, rfl⟩ := addMember_eq_ok_iff.mp hadded
          obtain ⟨ms, hms, rfl⟩ := (ih (hleft htaken)).mp hrest
          exact ⟨m :: ms, (areWritten_iff hblank).mpr ⟨m, ms, next, rfl, hformed, htaken, hms⟩, rfl⟩
        · rintro ⟨ms, hms, rfl⟩
          obtain ⟨m, ms', next, rfl, hformed, htaken, hrest⟩ := (areWritten_iff hblank).mp hms
          exact ⟨m.key, m.value, next, htaken, m.addTo b,
            addMember_eq_ok_iff.mpr ⟨m, hformed, rfl, rfl, rfl⟩, (ih (hleft htaken)).mpr ⟨ms', hrest, rfl⟩⟩

/-- More rounds than the text has characters make no difference. -/
theorem addMembers_eq_of_lt {count' : Nat} (hcount : s.length < count) (hcount' : s.length < count') :
    addMembers all count s b = addMembers all count' s b := by
  induction count generalizing s b count' with
  | zero => exact absurd hcount (Nat.not_lt_zero _)
  | succ count ih =>
      obtain ⟨count', rfl⟩ := Nat.exists_eq_succ_of_ne_zero (Nat.ne_zero_of_lt hcount')
      rw [addMembers, addMembers]
      split
      · rfl
      · split
        · rfl
        · next key value next htaken =>
          have hleft := length_lt_of_memberAt? htaken
          split
          · rfl
          · exact ih (Nat.lt_of_lt_of_le hleft (Nat.le_of_lt_succ hcount))
              (Nat.lt_of_lt_of_le hleft (Nat.le_of_lt_succ hcount'))

end

/-- The members that a text lists make the binding. -/
theorem parseMembers_eq_ok_iff {s : List Char} {b : Binding} :
    parseMembers s = .ok b ↔ ∃ ms, AreWritten ms s ∧ b = bindingOf ms := by
  rw [parseMembers, addMembers_eq_ok_iff s (Nat.lt_succ_self _)]
  simp only [foldl_addTo]

/-- **Arguments are accepted exactly if they list members as the grammar has them**, and of each kind the
last one counts.  All other arguments are at fault.  Each member that is taken makes the rest shorter, so
that the rounds never run out. -/
theorem parseMembers_accepts_exactly (s : List Char) :
    (∀ b, parseMembers s = .ok b ↔ ∃ ms, AreWritten ms s ∧ b = bindingOf ms) ∧
      ((∃ fault, parseMembers s = .error fault) ↔ ∀ ms, ¬AreWritten ms s) ∧
      (∀ rest key value next, memberAt? rest = some (key, value, next) →
        ∃ taken, taken ≠ [] ∧ rest = taken ++ next) ∧
      ∀ count, s.length < count → addMembers s count s {} = parseMembers s := by
  refine ⟨fun b => parseMembers_eq_ok_iff, ?_, fun rest key value next => exists_taken_of_memberAt?,
    fun count hcount => addMembers_eq_of_lt s hcount (Nat.lt_succ_self _)⟩
  constructor
  · rintro ⟨fault, hfault⟩ ms hms
    have hok := parseMembers_eq_ok_iff.mpr ⟨ms, hms, rfl⟩
    rw [hfault] at hok
    cases hok
  · intro hnone
    cases hparsed : parseMembers s with
    | error fault => exact ⟨fault, rfl⟩
    | ok b =>
        obtain ⟨ms, hms, -⟩ := parseMembers_eq_ok_iff.mp hparsed
        exact absurd hms (hnone ms)

end TextProviders.Source
