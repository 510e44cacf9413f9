import TypedPipeline.Proofs.Recipe.Acceptance
import TypedPipeline.Recipe.Report

/-!
# What a report decides

A report looks at a recipe in its own way before the recipe is built: it finds kinds, reads
references and looks up what they mean without any channel. That is no second opinion. All that is
found there is a flaw for which a build fails, so a report is free of errors exactly if a pipeline
can be built, a name and at least one entry being asked for besides.

Of several entries with one name, both the report and the build take a reference to mean the first
one. For the proof this makes no difference, since an acceptable recipe has no such entries.

## Implementation notes

Of the two directions, one is read off from the definition: a report without errors has built the
recipe. For the other one it has to be shown that the static checks find nothing wrong with a recipe
that can be built. This is where acceptability is needed, since a build that succeeds tells little
by itself. Each static check is matched with the part of `Recipe.Acceptable` that rules it out.

Static checks need not find every flaw. Entries that refer to each other in a circle pass them, and
so do references to outputs of a wrong type. It is enough that the build which follows finds these.

## Main results

* `Recipe.staticReport_isOk` — an acceptable recipe with a name and entries passes the static checks
* `Recipe.validate_isOk_iff` — a report is free of errors exactly if a pipeline can be built
-/

namespace TypedPipeline

/-! ### Reports

A report is free of errors if each of its parts is, so the parts can be looked at one by one. -/

namespace Report

theorem isOk_iff {r : Report} : r.isOk = true ↔ r.errors = [] := List.isEmpty_iff

theorem errors_append (r t : Report) : (r ++ t).errors = r.errors ++ t.errors := rfl

/-- What is kept of reports that are joined is kept of many reports too. -/
theorem kept_concat {kept : Report → List String} (hnil : kept {} = [])
    (happend : ∀ r t : Report, kept (r ++ t) = kept r ++ kept t) (l : List Report) :
    kept (concat l) = l.flatMap kept := by
  suffices hgen : ∀ r : Report, kept (l.foldl append r) = kept r ++ l.flatMap kept by
    rw [concat, hgen, hnil, List.nil_append]
  induction l with
  | nil => simp
  | cons t rest ih =>
    intro r
    rw [List.foldl_cons, ih, List.flatMap_cons, ← List.append_assoc, ← happend]
    rfl

theorem errors_concat (l : List Report) : (concat l).errors = l.flatMap errors :=
  kept_concat rfl errors_append l

theorem warnings_append (r t : Report) : (r ++ t).warnings = r.warnings ++ t.warnings := rfl

theorem warnings_concat (l : List Report) : (concat l).warnings = l.flatMap warnings :=
  kept_concat rfl warnings_append l

/-- Two reports are free of errors together exactly if each of them is. -/
theorem isOk_append_iff {r t : Report} :
    (r ++ t).isOk = true ↔ r.isOk = true ∧ t.isOk = true := by
  simp [isOk_iff, errors_append]

theorem isOk_concat_iff {l : List Report} :
    (concat l).isOk = true ↔ ∀ r ∈ l, r.isOk = true := by
  simp [isOk_iff, errors_concat]

theorem isOk_ofErrors_iff {errors : List String} :
    (ofErrors errors).isOk = true ↔ errors = [] := isOk_iff

end Report

/-! ### Names -/

theorem Text.isBlank_of_word {c : Char} (h : c.isAlphanum = true ∨ c = '_' ∨ c = '-') :
    isBlank c = false := by
  have hrange : 45 ≤ c.toNat ∧ c.toNat ≤ 122 := by
    rcases h with h | rfl | rfl
    · change ((decide (65 ≤ c.val ∧ c.val ≤ 90) || (97 ≤ c.val && c.val ≤ 122)) ||
        (48 ≤ c.val && c.val ≤ 57)) = true at h
      simp only [Bool.or_eq_true, Bool.and_eq_true, decide_eq_true_eq,
        UInt32.le_iff_toNat_le] at h
      have hval : c.val.toNat = c.toNat := rfl
      simp only [hval] at h
      grind
    · decide
    · decide
  simp only [isBlank, blankRanges, List.any_cons, List.any_nil, Bool.or_false, Bool.or_eq_false_iff,
    Bool.and_eq_false_iff, decide_eq_false_iff_not]
  omega

namespace Recipe

variable {r : Recipe} {registry : Registry} {e : Entry} {kind : Kind}

theorem Entry.Acceptable.not_blank (h : e.Acceptable r registry kind) :
    Text.isBlankText e.name = false := by
  obtain ⟨c, hc⟩ := List.exists_mem_of_ne_nil e.name.toList (by simpa using h.nonempty)
  rw [Text.isBlankText, List.all_eq_false]
  exact ⟨c, hc, by simp [Text.isBlank_of_word (h.word c hc)]⟩

/-! ### What is seen without building

Each lemma says that one check is silent where a recipe is acceptable. Names have to be distinct for
some of them, because the checks look for the first entry with a name. -/

theorem errorIf_eq_nil_iff {b : Bool} {text : String} : errorIf b text = [] ↔ b = false := by
  cases b <;> simp [errorIf]

/-- The first entry with a name is the only one, where names are distinct. -/
theorem find?_name (hnames : (r.entries.map Entry.name).Nodup) (he : e ∈ r.entries) :
    (r.entries.find? fun e' => e'.name == e.name) = some e := by
  cases hfind : r.entries.find? fun e' => e'.name == e.name with
  | none => simpa using List.find?_eq_none.mp hfind e he
  | some e' =>
    have hname : e'.name = e.name := by simpa using List.find?_some hfind
    rw [List.inj_on_of_nodup_map hnames (List.mem_of_find?_eq_some hfind) he hname]

/-- Nothing is said against a reference to something that the recipe provides. -/
theorem referenceErrors_of_provides (hnames : (r.entries.map Entry.name).Nodup)
    {reference typeName : String} (h : r.Provides registry reference typeName) (field : String) :
    r.referenceErrors registry field reference = [] := by
  rw [referenceErrors]
  rcases h with ⟨name, hreads, input, hinput, hname, -⟩ |
    ⟨component, output, hreads, e, he, rfl, kind, hkind, type, htype, -⟩
  · simp only [Reference.ofText?_input_iff.mpr hreads, errorIf_eq_nil_iff, Bool.not_eq_false',
      List.any_eq_true]
    exact ⟨input, hinput, by simpa using hname⟩
  · simp only [Reference.ofText?_output_iff.mpr hreads, find?_name hnames he, hkind,
      errorIf_eq_nil_iff, Option.isNone_eq_false_iff, Spec.outputType?, List.lookup_isSome_iff]
    exact ⟨(output, type), htype, by simp⟩

/-- Nothing is said against an acceptable entry. All its references are provided, and its kind is
known. -/
theorem entryErrors_of_acceptable (hnames : (r.entries.map Entry.name).Nodup)
    (hkind : registry.kinds.find? e.kind = some kind) (h : e.Acceptable r registry kind)
    (index : Nat) : r.entryErrors registry index e = [] := by
  have hcontains : registry.kinds.contains e.kind = true := by
    rw [SortedMap.contains, hkind]
    rfl
  have hreference : ∀ f ∈ e.inputs.entries, r.referenceErrors registry f.1 f.2 = [] := by
    intro f hf
    have hfind := SortedMap.find?_eq_some_iff.mpr hf
    obtain ⟨type, htype⟩ := (h.fields f.1).mp ⟨f.2, hfind⟩
    exact referenceErrors_of_provides hnames (h.references (f.1, type) htype f.2 hfind) f.1
  simp only [entryErrors, hcontains, h.not_blank, Bool.not_true, errorIf_eq_nil_iff.mpr,
    List.nil_append, List.append_nil, List.map_eq_nil_iff]
  exact List.flatMap_eq_nil_iff.mpr hreference

/-- An acceptable recipe passes the static checks if it has a name and entries. -/
theorem staticReport_isOk (h : r.Acceptable registry) (hname : Text.isBlankText r.name = false)
    (hentries : r.entries ≠ []) : (r.staticReport registry).isOk = true := by
  rw [staticReport, Report.isOk_append_iff, Report.isOk_append_iff]
  refine ⟨⟨?_, ?_⟩, ?_⟩
  · rw [Report.isOk_ofErrors_iff, headErrors, h.version, hname]
    cases hlist : r.entries with
    | nil => exact absurd hlist hentries
    | cons e rest => rfl
  · rw [Report.isOk_concat_iff, List.forall_mem_map]
    intro input hinput
    obtain ⟨type, htype⟩ := (h.inputs input hinput).registered
    rw [Report.isOk_iff, inputReport, errorIf_eq_nil_iff, TypeRegistry.contains, SortedMap.contains]
    rw [TypeRegistry.lookup?] at htype
    rw [htype]
    rfl
  · rw [Report.isOk_ofErrors_iff, List.flatten_eq_nil_iff]
    intro errors herrors
    obtain ⟨index, hindex, rfl⟩ := List.mem_mapIdx.mp herrors
    obtain ⟨kind, hkind, hacceptable⟩ := h.entries _ (List.getElem_mem hindex)
    exact entryErrors_of_acceptable h.entryNames hkind hacceptable index

/-- What the static checks ask of the recipe as a whole. -/
theorem of_staticReport_isOk (h : (r.staticReport registry).isOk = true) :
    Text.isBlankText r.name = false ∧ r.entries ≠ [] := by
  rw [staticReport, Report.isOk_append_iff, Report.isOk_append_iff, Report.isOk_ofErrors_iff,
    headErrors, List.append_eq_nil_iff, List.append_eq_nil_iff, errorIf_eq_nil_iff,
    errorIf_eq_nil_iff, errorIf_eq_nil_iff] at h
  refine ⟨h.1.1.1.2, ?_⟩
  simpa using h.1.1.2

/-! ### The whole report

The build that belongs to a report may be made in another store than the build with which the report
is compared. Since builds succeed or fail in all stores alike, nothing depends on it. -/

/-- The recipe is built only if the static checks find nothing, and a failure is one more error. -/
theorem fst_validate (r : Recipe) (registry : Registry) (rootGiven : Option String) (s : Store) :
    (r.validate registry rootGiven s).1 =
      if (r.staticReport registry).isOk then
        match (r.build registry rootGiven s).1 with
        | .ok _ => r.staticReport registry ++ ⟨[], r.unreadWarnings⟩
        | .error f => r.staticReport registry ++ .ofErrors [f.text]
      else r.staticReport registry := by
  unfold validate
  cases (r.staticReport registry).isOk with
  | false => rfl
  | true =>
    simp only [Bool.not_true, Bool.false_eq_true, if_false, if_true, bind, StateT.bind, ExceptT.run]
    rcases r.build registry rootGiven s with ⟨_ | _, _⟩ <;> rfl

/-- A report is free of errors exactly if the static checks find none and the build succeeds. -/
theorem isOk_validate_iff (r : Recipe) (registry : Registry) (rootGiven : Option String)
    (s : Store) :
    (r.validate registry rootGiven s).1.isOk = true ↔
      (r.staticReport registry).isOk = true ∧
        ∃ p s', r.build registry rootGiven s = (.ok p, s') := by
  rw [fst_validate]
  cases hstatic : (r.staticReport registry).isOk with
  | false => simp [hstatic]
  | true =>
    rcases r.build registry rootGiven s with ⟨f | p, s'⟩
    · refine iff_of_false ?_ ?_
      · simp [Report.isOk_append_iff, Report.isOk_ofErrors_iff]
      · rintro ⟨-, p, t, h⟩
        cases h
    · exact iff_of_true (Report.isOk_append_iff.mpr ⟨hstatic, rfl⟩) ⟨rfl, p, s', rfl⟩

/-- A report is free of errors exactly if the recipe has a name, which is not blank, and at least
one entry, and a pipeline can be built from it. The report and the build may be made in different
stores and surroundings. -/
theorem validate_isOk_iff (r : Recipe) (registry : Registry) (rootGiven rootGiven' : Option String)
    (s t : Store) :
    (r.validate registry rootGiven s).1.isOk = true ↔
      (∃ c ∈ r.name.toList, Text.isBlank c = false) ∧ r.entries ≠ [] ∧
        ∃ p t', r.build registry rootGiven' t = (.ok p, t') := by
  have hname : Text.isBlankText r.name = false ↔ ∃ c ∈ r.name.toList, Text.isBlank c = false := by
    simp [Text.isBlankText]
  rw [isOk_validate_iff, (build_decides r registry rootGiven s).exists_ok_iff,
    (build_decides r registry rootGiven' t).exists_ok_iff, ← hname]
  constructor
  · rintro ⟨hstatic, hbuild⟩
    obtain ⟨hname, hentries⟩ := of_staticReport_isOk hstatic
    exact ⟨hname, hentries, hbuild⟩
  · rintro ⟨hname, hentries, hbuild⟩
    exact ⟨staticReport_isOk hbuild hname hentries, hbuild⟩

/-- Entries that refer to each other in a circle pass the static checks. -/
example : (Relay.circular.staticReport Relay.registry).isOk = true := by decide +kernel

end Recipe

end TypedPipeline
