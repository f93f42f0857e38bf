import DeviceSettings.Profile.Document
import DeviceSettings.Proofs.Document.Results
import DeviceSettings.Proofs.Documents
import DeviceSettings.Proofs.Yaml.Reading

/-!
# Profiles read back

What is written of a profile is read as that profile (`Profile.parse_print`), whatever its texts are, if its scan
codes are codes at all (`KeyTable.HasCodes`).  There is a lemma for each section.
-/

namespace DeviceSettings

open Document (DataTree Field Fills Reader Reads Yields)
open Yaml (dialect Scalar)
open Yaml.Printer (style)

variable {n : Nat}

/-! ## entries -/

/-- A key as it stands in a document. -/
def nameTree (name : String) : DataTree Scalar := .scalar ⟨name, style name, none⟩

section
variable {ρ : Type} {f : Field Scalar ρ} {fs : List (Field Scalar ρ)} {r next last : ρ} {v : Yaml.Value}
  {es : List (String × Yaml.Value)}

/-- An entry fills the field of its name. -/
theorem fills_cons (hread : Reads dialect n (f.read r) v.tree next)
    (hrest : Fills dialect n fs next (Yaml.Value.treeEntries es) last) :
    Fills dialect n (f :: fs) r (Yaml.Value.treeEntries ((f.name, v) :: es)) last := by
  rw [Yaml.Value.treeEntries]
  exact .present rfl hread hrest

theorem reads_path (p : Path) : Reads dialect n pathReader p.yaml.tree p :=
  (Yaml.reads_textOf p.text "path string").map Path.mk

theorem reads_lacking {set : ρ → Option Path → ρ} {name : String} (p : Path) :
    Reads dialect n ((Field.lacking name pathReader set).read r) p.yaml.tree (set r (some p)) :=
  ((reads_path p).optional_scalar (Yaml.isNull_text p.text)).map _

/-- A node that may be lacking. -/
theorem fills_lacking {set : ρ → Option Path → ρ} {name : String} {o : Option Path} (hnone : set r none = r)
    (hrest : Fills dialect n fs (set r o) (Yaml.Value.treeEntries es) last) :
    Fills dialect n (.lacking name pathReader set :: fs) r
      (Yaml.Value.treeEntries (lackingEntry name o ++ es)) last := by
  cases o with
  | none => exact .absent rfl (hnone ▸ hrest)
  | some p => exact fills_cons (reads_lacking p) hrest

end

/-! ## sections -/

theorem Path.reads_table (t : Table Key Path) :
    Reads dialect (n + 1) (Document.table pathReader) (tableYaml t).tree t :=
  Yaml.reads_table t fun e _ => reads_path e.2

theorem Gate.reads (g : Gate) : Reads dialect (n + 1) reader g.yaml.tree g := by
  refine Reads.record (fills_cons ((reads_path g.node).map _) ?_) (by decide) _
  exact fills_cons ((Yaml.reads_textOf g.required _).map _) .done

theorem Buttons.reads (b : Buttons) : Reads dialect (n + 3) reader b.yaml.tree b := by
  have hgates : Reads dialect (n + 2) (Document.table Gate.reader) _ b.gates :=
    Yaml.reads_table b.gates fun e _ => e.2.reads
  have hpresence : Reads dialect (n + 2) (Document.list pathReader) _ b.presence :=
    Yaml.reads_list fun p _ => reads_path p
  refine Reads.record (fills_cons ((Path.reads_table b.switches).map _) ?_) (by decide) _
  refine fills_cons ((Path.reads_table b.texts).map _) ?_
  refine fills_cons (hgates.map _) ?_
  exact fills_cons (hpresence.map _) .done

theorem PocketKeys.reads (p : PocketKeys) : Reads dialect (n + 1) reader p.yaml.tree p := by
  refine Reads.record (fills_cons ((Yaml.reads_textOf p.wakeup _).map _) ?_) (by decide) _
  refine fills_cons ((Yaml.reads_textOf p.pocketMode _).map _) ?_
  refine fills_cons ((Yaml.reads_textOf p.package _).map _) ?_
  rw [← List.append_nil (lackingEntry _ _)]
  exact fills_lacking rfl .done

theorem SearchTable.reads (s : SearchTable) : Reads dialect (n + 2) reader s.yaml.tree s := by
  have hkeys : Reads dialect (n + 1) (Document.list Document.text) _ s.gatedKeys :=
    Yaml.reads_list fun key _ => Yaml.reads_textOf key _
  refine Reads.record (fills_cons (hkeys.map _) ?_) (by decide) _
  exact fills_cons ((reads_path s.packagesList).map _) .done

theorem VirtualKeys.reads (k : VirtualKeys) : Reads dialect (n + 1) reader k.yaml.tree k := by
  intro c hc hn
  cases k with
  | disablerNode =>
    have hread : Reads dialect (n + 1) (Document.tagged "VirtualKeySource" "source" sourceNames) disablerNode.yaml.tree
        ("key_disabler", .map []) :=
      .tagged (Yaml.any_text "source") rfl (by decide) .nil _
    rw [reader, hread c hc hn, pure_bind]
    rfl
  | setting key =>
    have hkey : Reads.IsBeside dialect n "source" (nameTree "key", (Yaml.Value.text key).tree)
        (.scalar (.text "key"), .scalar (.text key)) :=
      ⟨"key", by decide, rfl, .content_text (Yaml.any_text "key"), .content_text (Yaml.any_text key)⟩
    have hread : Reads dialect (n + 1) (Document.tagged "VirtualKeySource" "source" sourceNames) (setting key).yaml.tree
        ("preference", .map [(.scalar (.text "key"), .scalar (.text key))]) :=
      .tagged (Yaml.any_text "source") rfl (by decide) (.cons hkey .nil) _
    rw [reader, hread c hc hn, pure_bind]
    rfl

/-- The codes of a table are codes that key events can carry. -/
def KeyTable.HasCodes (k : KeyTable) : Prop := k.fingerprintCode < scanCodeLimit ∧ k.mechanicalCode < scanCodeLimit

theorem KeyTable.reads {k : KeyTable} (h : k.HasCodes) : Reads dialect (n + 2) reader k.yaml.tree k := by
  have hlimit : scanCodeLimit ≤ Yaml.wordLimit := by decide
  rw [yaml, List.append_assoc, List.append_assoc]
  refine Reads.record (fills_lacking rfl ?_) (by decide) _
  refine fills_lacking rfl ?_
  refine fills_lacking rfl ?_
  refine fills_cons ((Yaml.reads_natural h.1 hlimit _).map _) ?_
  refine fills_cons ((Yaml.reads_natural h.2 hlimit _).map _) ?_
  exact fills_cons (k.virtualKeys.reads.map _) .done

/-- Whatever document a table is read from, its codes are codes. -/
theorem KeyTable.yields {σ : Type} : Yields (reader : Reader σ KeyTable) HasCodes := by
  have hcode := Yields.natural (σ := σ) "u16" scanCodeLimit
  refine Yields.record ?_ ⟨by decide, by decide⟩ _
  refine List.forall_mem_cons.mpr ⟨Field.keeps_defaulted (.anything _) fun _ _ h _ => h, ?_⟩
  refine List.forall_mem_cons.mpr ⟨Field.keeps_defaulted (.anything _) fun _ _ h _ => h, ?_⟩
  refine List.forall_mem_cons.mpr ⟨Field.keeps_defaulted (.anything _) fun _ _ h _ => h, ?_⟩
  refine List.forall_mem_cons.mpr ⟨Field.keeps_defaulted hcode fun _ _ h hn => ⟨hn, h.2⟩, ?_⟩
  refine List.forall_mem_cons.mpr ⟨Field.keeps_defaulted hcode fun _ _ h hn => ⟨h.1, hn⟩, ?_⟩
  refine List.forall_mem_cons.mpr ⟨Field.keeps_defaulted (.anything _) fun _ _ h _ => h, ?_⟩
  exact List.forall_mem_nil _

theorem DozeKeys.reads (d : DozeKeys) : Reads dialect (n + 1) reader d.yaml.tree d := by
  refine Reads.record (fills_cons ((Yaml.reads_textOf d.enabled _).map _) ?_) (by decide) _
  refine fills_cons ((Yaml.reads_textOf d.alwaysOn _).map _) ?_
  refine fills_cons ((Yaml.reads_textOf d.pickUp _).map _) ?_
  refine fills_cons ((Yaml.reads_textOf d.handWave _).map _) ?_
  refine fills_cons ((Yaml.reads_textOf d.pocket _).map _) ?_
  refine fills_cons ((Yaml.reads_boolean d.alwaysOnAvailable).map _) ?_
  exact fills_cons ((Yaml.reads_boolean d.proximityCheck).map _) .done

/-- A switch stays a switch, and a text stays a text whatever it spells. -/
theorem Value.reads (v : Value) : Reads dialect n reader v.yaml.tree v := by
  intro c hc hn
  have hread : Reads dialect n Document.content v.yaml.tree v.content := by
    cases v with
    | switch on =>
      refine .content_boolean ?_
      cases on <;> decide
    | text s => exact .content_text (Yaml.any_text s)
  rw [reader, hread c hc hn, pure_bind, ofContent?_content]

namespace Profile

/-! ## whole profiles -/

theorem reads {p : Profile} (hversion : p.version < versionLimit) (hcodes : p.keys.HasCodes) :
    Document.Reads dialect 4 reader (Yaml.Value.map p.entries).tree p := by
  have hlimit : versionLimit ≤ Yaml.wordLimit := by decide
  have hdefaults : Document.Reads dialect 3 (Document.table Value.reader) _ p.defaults :=
    Yaml.reads_table p.defaults fun e _ => e.2.reads
  refine Document.Reads.record (fills_cons ((Yaml.reads_natural hversion hlimit _).map _) ?_) (by decide) _
  refine fills_cons ((Yaml.reads_textOf p.device _).map _) ?_
  refine fills_cons (p.buttons.reads.map _) ?_
  refine fills_cons (p.pocket.reads.map _) ?_
  refine fills_cons (p.search.reads.map _) ?_
  refine fills_cons ((KeyTable.reads hcodes).map _) ?_
  refine fills_cons (p.doze.reads.map _) ?_
  exact fills_cons (hdefaults.map _) .done

/-- A profile is read back. -/
theorem parse_print {p : Profile} (hversion : p.version < versionLimit) (hcodes : p.keys.HasCodes) :
    parse p.print = .ok p := by
  obtain ⟨follows, hsource⟩ : ∃ follows, Yaml.source (Yaml.Value.print p.entries) = _ :=
    Yaml.source_print (List.cons_ne_nil _ _)
  rw [parse, Yaml.read, print, hsource]
  exact Document.Source.read_of_reads (reads hversion hcodes) (by decide) _ _

/-! ## profiles that are read -/

theorem yields {σ : Type} : Yields (reader : Reader σ Profile) fun p => p.keys.HasCodes := by
  refine Yields.record ?_ ⟨by decide, by decide⟩ _
  refine List.forall_mem_cons.mpr ⟨Field.keeps_needed (.anything _) fun _ _ h _ => h, ?_⟩
  refine List.forall_mem_cons.mpr ⟨Field.keeps_needed (.anything _) fun _ _ h _ => h, ?_⟩
  refine List.forall_mem_cons.mpr ⟨Field.keeps_defaulted (.anything _) fun _ _ h _ => h, ?_⟩
  refine List.forall_mem_cons.mpr ⟨Field.keeps_defaulted (.anything _) fun _ _ h _ => h, ?_⟩
  refine List.forall_mem_cons.mpr ⟨Field.keeps_defaulted (.anything _) fun _ _ h _ => h, ?_⟩
  refine List.forall_mem_cons.mpr ⟨Field.keeps_defaulted KeyTable.yields fun _ _ _ hk => hk, ?_⟩
  refine List.forall_mem_cons.mpr ⟨Field.keeps_defaulted (.anything _) fun _ _ h _ => h, ?_⟩
  refine List.forall_mem_cons.mpr ⟨Field.keeps_defaulted (.anything _) fun _ _ h _ => h, ?_⟩
  exact List.forall_mem_nil _

theorem hasCodes_of_parse {s : String} {p : Profile} (h : parse s = .ok p) : p.keys.HasCodes := yields.read h

end Profile

end DeviceSettings
