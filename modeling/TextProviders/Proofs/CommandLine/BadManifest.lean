import Mathlib.Control.Monad.Basic
import TextProviders.CommandLine.Commands
import TextProviders.Proofs.Document.Composing
import TextProviders.Proofs.Document.Loading
import TextProviders.Proofs.FileSystem.Looking
import TextProviders.Proofs.Manifest.Entry

/-!
# Bad manifests

Whatever bytes a manifest has, it is read as declarations, or the user is told what is wrong with it and
the command ends with status 1.  That is so as long as the document has values (`Manifest.HasValues`): no
escape gives a code for which there is no character, no version is a number with too many digits, every
scalar has a value of its type, and no mapping is marked as a scalar (`Nodes.HaveValues`).

A scalar that looks like one of a type, or is marked as one, and has no value of it is a failure that is not
foreseen.  The command ends with it, whether or not anything would have used the value.
-/

namespace TextProviders

open CommandLine Document

/-! ## Documents with values -/

/-- Everything in the document of a manifest has a value, as far as its form is not at fault. -/
structure Manifest.HasValues (bytes : List UInt8) : Prop where
  /-- No escape gives a code for which there is no character. -/
  codes : ∀ n, Node.ofSource (.ofBytes bytes) ≠ .error (.code n)
  /-- No version is a number with too many digits. -/
  versions : ∀ f, Node.ofSource (.ofBytes bytes) ≠ .error (.numeral f)
  nodes : ∀ nodes root, Node.ofSource (.ofBytes bytes) = .ok (some (nodes, root)) → nodes.HaveValues

/-- What stops the reading of such a document is its form, or bytes that are no text. -/
theorem Manifest.HasValues.fault_cases {bytes : List UInt8} (h : Manifest.HasValues bytes)
    {f : Document.Fault} (hf : Node.ofSource (.ofBytes bytes) = .error f) :
    f = .malformed ∨ ∃ e, f = .undecodable e := by
  rcases (Node.isOfText_of_ofBytes hf).cases with hmalformed | hbytes | hcode | hnumber
  · exact .inl hmalformed
  · exact .inr hbytes
  · obtain ⟨n, rfl⟩ := hcode
    exact absurd hf (h.codes n)
  · obtain ⟨e, rfl⟩ := hnumber
    exact absurd hf (h.versions e)

theorem Manifest.HasValues.of_nodes {bytes : List UInt8} {nodes : Nodes} {root : NodeId}
    (h : Node.ofSource (.ofBytes bytes) = .ok (some (nodes, root))) (hnodes : nodes.HaveValues) :
    Manifest.HasValues bytes where
  codes n hn := by cases h.symm.trans hn
  versions f hf := by cases h.symm.trans hf
  nodes nodes' root' h' := by
    cases h.symm.trans h'
    exact hnodes

/-! ## Entries -/

section

variable {cs : Containers} (hcs : cs.AreShown) {entries : List (Value × Value)}
  (hentries : ∀ e ∈ entries, e.2.IsShown cs.size) {f : EntryFault}

include hentries in
theorem isShown_of_lookup {key : String} {v : Value} (h : Value.lookup entries key = some v) :
    v.IsShown cs.size := by
  obtain ⟨e, he, rfl⟩ := Option.map_eq_some_iff.mp h
  exact hentries e (List.mem_of_find?_eq_some he)

include hcs in
theorem isShown_of_entries? {v : Value} (h : v.entries? cs = some entries) :
    ∀ e ∈ entries, e.2.IsShown cs.size := by
  cases v with
  | container id =>
      unfold Value.entries? at h
      dsimp only at h
      split at h
      · next hc =>
        obtain rfl := Option.some.inj h
        exact fun e he => (hcs id _ hc e he).2
      · cases h
  | _ => cases h

include hcs in
/-- An entry at fault is told so, if all of the document can be shown. -/
theorem parseEntry_kind_of_areShown {entry : Value} (h : parseEntry cs entry = .error f) :
    f.kind = .manifest := by
  refine parseEntry_kind (fun entries hread key _ v hv => ?_) h
  exact Value.described?_isSome hcs (isShown_of_lookup (isShown_of_entries? hcs hread) hv)

end

/-! ## Manifests -/

theorem parseEntries_kind {cs : Containers} (hcs : cs.AreShown) {items : List Value} {index : Nat}
    {f : ManifestFault} (h : parseEntries cs index items = .error f) : f.kind = .manifest := by
  induction items generalizing index with
  | nil => cases h
  | cons entry rest ih =>
      unfold parseEntries at h
      split at h
      · next hentry => exact Except.error.inj h ▸ parseEntry_kind_of_areShown hcs hentry
      · cases hrest : parseEntries cs (index + 1) rest with
        | error e =>
            rw [hrest] at h
            obtain rfl := Except.error.inj h
            exact ih hrest
        | ok ds =>
            rw [hrest] at h
            cases h

/-- A file that cannot be read is one of the system's errors, unless its path can be none. -/
theorem isSystem_of_read {fs : FileSystem} {here : Location} {path : Path} {f : AccessFailure}
    (hpath : FileSystem.holdsNul path = false) (h : fs.read here path = .error f) :
    f.error.kind.isSystem = true := by
  unfold FileSystem.read FileSystem.stat at h
  cases hloc : fs.locate here path with
  | error e =>
      rw [hloc] at h
      obtain rfl := Except.error.inj h
      rcases FileSystem.locate_eq_error hloc with ⟨-, hnul⟩ | ⟨rfl, -⟩ | ⟨rfl, -⟩ | rfl | rfl
      · rw [hpath] at hnul
        cases hnul
      all_goals rfl
  | ok place =>
      rw [hloc] at h
      cases place with
      | directory loc => exact Except.error.inj h ▸ rfl
      | «at» loc =>
          cases hget : fs.get? loc with
          | none =>
              simp only [hget] at h
              exact Except.error.inj h ▸ rfl
          | some e =>
              cases e with
              | file bytes => simp only [hget] at h; cases h
              | directory =>
                  simp only [hget] at h
                  exact Except.error.inj h ▸ rfl

namespace Manifest

theorem ofValue_kind {cs : Containers} (hcs : cs.AreShown) {v : Value} {f : ManifestFault}
    (h : ofValue cs v = .error f) : f.kind = .manifest := by
  unfold ofValue at h
  split at h
  · exact Except.error.inj h ▸ rfl
  · dsimp only at h
    split at h
    · cases h
    · split at h
      · exact parseEntries_kind hcs h
      · exact Except.error.inj h ▸ rfl

/-- A manifest that has values is at fault as a manifest, or its bytes are no text. -/
theorem HasValues.ofBytes_kind {bytes : List UInt8} (hvalues : HasValues bytes) {f : ManifestFault}
    (h : ofBytes bytes = .error f) : f.kind = .manifest ∨ f.kind = .undecodable := by
  unfold ofBytes at h
  split at h
  · next e he =>
    obtain rfl := Except.error.inj h
    have hfault : e = .malformed ∨ ∃ e', e = .undecodable e' :=
      (isForm_of_load hvalues.nodes he).elim .inl hvalues.fault_cases
    rcases hfault with rfl | ⟨e', rfl⟩
    · exact .inl rfl
    · exact .inr rfl
  · next he =>
    obtain ⟨hcs, -⟩ := areShown_of_load hvalues.nodes he
    exact .inl (ofValue_kind hcs h)

theorem read_of_bytes {fs : FileSystem} {here : Location} {path : Path} {bytes : List UInt8}
    (h : fs.read here path = .ok bytes) :
    Manifest.read fs here path = (ofBytes bytes).mapError (.manifest path) := by
  unfold Manifest.read
  rw [h]

/-- A failure to read a manifest is foreseen, if the path can be one and the document has values. -/
theorem isForeseen_of_read {fs : FileSystem} {here : Location} {path : Path} {f : InputFailure}
    (hpath : FileSystem.holdsNul path = false)
    (hvalues : ∀ bytes, fs.read here path = .ok bytes → HasValues bytes)
    (h : Manifest.read fs here path = .error f) : f.isForeseen = true := by
  cases hfile : fs.read here path with
  | error e =>
      unfold Manifest.read at h
      rw [hfile] at h
      obtain rfl := Except.error.inj h
      have hsystem : (InputFailure.access e).kind.isSystem = true := isSystem_of_read hpath hfile
      unfold InputFailure.isForeseen
      rw [hsystem]
      rfl
  | ok bytes =>
      rw [read_of_bytes hfile] at h
      cases hread : ofBytes bytes with
      | ok batch =>
          rw [hread] at h
          cases h
      | error e =>
          rw [hread] at h
          obtain rfl := Except.error.inj h
          unfold InputFailure.isForeseen InputFailure.kind
          rcases (hvalues bytes hfile).ofBytes_kind hread with hkind | hkind
          · simp [hkind]
          · simp [hkind]

end Manifest

/-- A directory with nothing but a manifest. -/
def onlyManifest (text : String) : Start where
  files := ⟨[(["m.yaml"], .file (Text.Utf8.encode text.toList))]⟩
  here := []

end TextProviders
