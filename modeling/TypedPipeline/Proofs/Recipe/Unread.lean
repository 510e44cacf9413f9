import TypedPipeline.Proofs.Recipe.Naming

/-!
# Inputs that nobody reads

That a declared input is not read is said twice. A report says it of a recipe, by comparing the
texts of references with the names of inputs. A pipeline says it of its channels, by looking for
them among those that its components read. Of most inputs both say the same. They differ where a
text is the name of an input but is read as the output of a component: then the report takes the
input to be read, though nothing leads to its channel. Nowhere else do they differ, and the other
way round never.

## Implementation notes

A report is a list of sentences. To say that it tells of an input is to say that the sentence with
the name of this input is one of them, and so it has to be shown that no other sentence reads the
same. Sentences with different names differ, and the last letters tell this kind of sentence from
those about missing locations.

On the side of the pipeline the question is about channels, and on that of the report about texts.
In a recipe that was built, each reference is read in one of two ways, as an input or as an output.
So a text that is the name of an input is a reference to the input, or it is the text of an output.
This is `Recipe.Built.mentions_iff`, and the second case is the one in which both sides differ.

## Main definitions

* `Recipe.Mentions` — an entry has a name as the text of a reference
* `Recipe.WritesForOutput` — an entry has it as the text of an output

## Main results

* `Recipe.unreadText_mem_warnings_iff` — what a report says
* `Recipe.Built.isRead_iff` — what a pipeline says
* `Recipe.unread_warnings_iff` — both compared
-/

namespace TypedPipeline.Recipe

variable {r : Recipe} {registry : Registry} {rootGiven rootGiven' : Option String} {s t t' : Store}
  {channels : Channels} {placed : List Placed} {p : Pipeline} {name : String} {c : Channel}

/-! ### Reports

Warnings come from two places. The static checks warn of locations, and only the part that follows a
build warns of inputs that are not read. -/

/-- The sentence by which a report tells of an input that is not read. -/
def unreadText (name : String) : String :=
  s!"Pipeline input '{name}' is not read by any component"

/-- Different inputs have different sentences. The name stands between two fixed texts and can be
read off. -/
theorem unreadText_injective {name other : String} (h : unreadText name = unreadText other) :
    name = other := by
  have hchars := congrArg String.toList h
  unfold unreadText at hchars
  rw [String.toList_append, String.toList_append, String.toList_append, String.toList_append,
    List.append_left_inj, List.append_right_inj] at hchars
  exact String.toList_inj.mp hchars

theorem getLast?_append_text (text : String) {last : String} {a : Char}
    (h : last.toList.getLast? = some a) : (text ++ last).toList.getLast? = some a := by
  rw [String.toList_append, List.getLast?_append, h, Option.some_or]

/-- No sentence about a missing location is one of them, as the last letters show. -/
theorem unreadText_ne_missing (name other : String) : unreadText name ≠
    s!"Pipeline input '{other}' has no uri; components reading it cannot run locally" := by
  intro h
  have hunread : (unreadText name).toList.getLast? = some 't' :=
    getLast?_append_text _ (by decide +kernel)
  rw [h, getLast?_append_text (a := 'y') _ (by decide +kernel)] at hunread
  exact absurd hunread (by decide)

theorem eq_of_mem_errorIf {b : Bool} {text text' : String} (h : text ∈ errorIf b text') :
    text = text' := by
  cases b
  · cases h
  · exact List.mem_singleton.mp h

/-- An entry has the name as the text of a reference. -/
def Mentions (r : Recipe) (name : String) : Prop :=
  ∃ e ∈ r.entries, ∃ reference ∈ e.inputs.values, Text.trim reference = name

/-- There is a warning for each declared input whose name is no text of a reference. -/
theorem unreadText_mem_unreadWarnings_iff :
    unreadText name ∈ r.unreadWarnings ↔
      (∃ input ∈ r.inputs, input.name = name) ∧ ¬ r.Mentions name := by
  have hread : ∀ input : Input, (!r.entries.any fun e => e.inputs.values.any fun reference =>
      Text.trim reference == input.name) = true ↔ ¬ r.Mentions input.name := by
    intro input
    simp [Mentions]
  rw [unreadWarnings, List.mem_map]
  constructor
  · rintro ⟨input, hinput, htext⟩
    obtain ⟨hmem, hunread⟩ := List.mem_filter.mp hinput
    obtain rfl := unreadText_injective htext
    exact ⟨⟨input, hmem, rfl⟩, (hread input).mp hunread⟩
  · rintro ⟨⟨input, hmem, rfl⟩, hunread⟩
    exact ⟨input, List.mem_filter.mpr ⟨hmem, (hread input).mpr hunread⟩, rfl⟩

/-- Before the recipe is built, nothing is said of inputs that are not read. -/
theorem unreadText_not_mem_staticReport :
    unreadText name ∉ (r.staticReport registry).warnings := by
  rw [staticReport, Report.warnings_append, Report.warnings_append, Report.warnings_concat,
    List.flatMap_map]
  simp only [Report.ofErrors, List.append_nil, List.nil_append, List.mem_flatMap, not_exists,
    not_and]
  intro input _ hmem
  exact unreadText_ne_missing name input.name (eq_of_mem_errorIf hmem)

/-- A report without errors tells of the declared inputs that no entry mentions. -/
theorem unreadText_mem_warnings_iff (hok : (r.validate registry rootGiven s).1.isOk = true) :
    unreadText name ∈ (r.validate registry rootGiven s).1.warnings ↔
      (∃ input ∈ r.inputs, input.name = name) ∧ ¬ r.Mentions name := by
  obtain ⟨hstatic, p, s', hbuild⟩ := (isOk_validate_iff r registry rootGiven s).mp hok
  rw [fst_validate, if_pos hstatic, hbuild]
  show unreadText name ∈ (r.staticReport registry ++ (⟨[], r.unreadWarnings⟩ : Report)).warnings ↔ _
  rw [Report.warnings_append, List.mem_append, or_iff_right unreadText_not_mem_staticReport]
  exact unreadText_mem_unreadWarnings_iff

/-! ### Pipelines

A pipeline knows the channels that its components read, and none of the texts that led to them. -/

/-- An entry has the name as the text of an output. The name of the component may be any, and the
text is the one that stands in a recipe when the output is meant. -/
def WritesForOutput (r : Recipe) (name : String) : Prop :=
  ∃ e ∈ r.entries, ∃ reference ∈ e.inputs.values, ∃ component output,
    Reference.NamesOutput reference component output ∧ name = Producer.text ⟨component, output⟩

/-- The channel of an input is read exactly if an entry has a reference to the input. The component
of that entry is part of the pipeline, as all entries have components. -/
theorem Built.isRead_iff (h : r.Built registry channels placed p t)
    (hc : channels.inputs.find? name = some c) :
    p.isRead c = true ↔ ∃ e ∈ r.entries, ∃ reference ∈ e.inputs.values,
      Reference.NamesInput reference name := by
  obtain ⟨s₀, hl⟩ := h.laidOut
  have hread : p.isRead c = true ↔
      ∃ k ∈ p.components, ∃ d ∈ k.inputs.values, d.id = c.id := by
    rw [Pipeline.isRead, Array.any_eq_true']
    simp
  rw [hread]
  constructor
  · rintro ⟨k, hk, d, hd, hid⟩
    obtain ⟨q, hq, hmade⟩ := h.constructed.exists_placed k (Array.mem_toList_iff.mpr hk)
    obtain ⟨field, hfind⟩ := SortedMap.mem_values_iff_find?.mp hd
    obtain ⟨reference, hreference, hresolve⟩ := (hmade.inputs.find? field d).mp hfind
    exact ⟨q.entry, hl.mem_entries_iff.mpr ⟨q, hq, rfl⟩, reference,
      SortedMap.mem_values_iff_find?.mpr ⟨field, hreference⟩,
      (hl.leads_to_input_iff hc).mp ⟨d, hresolve, hid⟩⟩
  · rintro ⟨e, he, reference, hvalue, hreads⟩
    obtain ⟨q, hq, rfl⟩ := hl.mem_entries_iff.mp he
    obtain ⟨k, hk, hmade⟩ := h.constructed.exists_component q hq
    obtain ⟨field, hreference⟩ := SortedMap.mem_values_iff_find?.mp hvalue
    obtain ⟨d, hresolve, hid⟩ := (hl.leads_to_input_iff hc).mpr hreads
    have hfind := (hmade.inputs.find? field d).mpr ⟨reference, hreference, hresolve⟩
    exact ⟨k, by simpa using hk, d, SortedMap.mem_values_iff_find?.mpr ⟨field, hfind⟩, hid⟩

theorem Built.mem_unusedInputs_iff (h : r.Built registry channels placed p t)
    (hc : channels.inputs.find? name = some c) :
    c ∈ p.unusedInputs ↔ ¬ ∃ e ∈ r.entries, ∃ reference ∈ e.inputs.values,
      Reference.NamesInput reference name := by
  have hinput : c ∈ p.inputs := by
    rw [h.inputs]
    exact SortedMap.mem_values_iff_find?.mpr ⟨name, hc⟩
  rw [← h.isRead_iff hc]
  simp [Pipeline.unusedInputs, hinput]

theorem WritesForOutput.point_mem (h : r.WritesForOutput name) : '.' ∈ name.toList := by
  obtain ⟨e, -, reference, -, component, output, -, rfl⟩ := h
  show _ ∈ (component ++ "." ++ output).toList
  simp [String.toList_append]

/-- In a recipe that was built, the text of each reference is read in one of two ways. -/
theorem Built.mentions_iff (h : r.Built registry channels placed p t) :
    r.Mentions name ↔ (∃ e ∈ r.entries, ∃ reference ∈ e.inputs.values,
      Reference.NamesInput reference name) ∨ r.WritesForOutput name := by
  obtain ⟨s₀, hl⟩ := h.laidOut
  constructor
  · rintro ⟨e, he, reference, hvalue, htrim⟩
    obtain ⟨q, hq, rfl⟩ := hl.mem_entries_iff.mp he
    obtain ⟨k, -, hmade⟩ := h.constructed.exists_component q hq
    obtain ⟨field, hreference⟩ := SortedMap.mem_values_iff_find?.mp hvalue
    obtain ⟨d, hresolve⟩ := hmade.inputs.resolves field reference hreference
    rcases resolve_ok_iff.mp hresolve with ⟨name', hreads, -⟩ |
      ⟨component, output, outputs, hreads, -⟩
    · obtain rfl := htrim.symm.trans hreads.1
      exact .inl ⟨q.entry, he, reference, hvalue, hreads⟩
    · exact .inr ⟨q.entry, he, reference, hvalue, component, output, hreads,
        htrim.symm.trans hreads.1⟩
  · rintro (⟨e, he, reference, hvalue, hreads⟩ |
      ⟨e, he, reference, hvalue, component, output, hreads, rfl⟩)
    · exact ⟨e, he, reference, hvalue, hreads.1⟩
    · exact ⟨e, he, reference, hvalue, hreads.1⟩

/-! ### Both compared

The report and the pipeline may come from different stores. What is compared are names on the one
side and the channels that were made for them on the other. -/

/-- If a report is free of errors, it tells of those declared inputs whose channels no component of
the pipeline reads, except where an entry has the name of the input as the text of an output: it
never tells of such an input. -/
theorem unread_warnings_iff (hok : (r.validate registry rootGiven s).1.isOk = true)
    (hbuild : r.build registry rootGiven' t = (.ok p, t')) :
    ∃ channels placed t₀, r.layOut registry t = (.ok (channels, placed), t₀) ∧
      (∀ input ∈ r.inputs, ∃ c, channels.inputs.find? input.name = some c ∧
        (unreadText input.name ∈ (r.validate registry rootGiven s).1.warnings ↔
          c ∈ p.unusedInputs ∧ ¬ r.WritesForOutput input.name)) ∧
      (∀ name, unreadText name ∈ (r.validate registry rootGiven s).1.warnings →
        ∃ input ∈ r.inputs, input.name = name) ∧
      ∀ c ∈ p.unusedInputs, ∃ input ∈ r.inputs, channels.inputs.find? input.name = some c := by
  obtain ⟨channels, placed, t₀, hlay, hbuilt⟩ := layOut_of_build hbuild
  obtain ⟨t₁, hl⟩ := hbuilt.laidOut
  refine ⟨channels, placed, t₀, hlay, fun input hinput => ?_,
    fun name hwarned => ((unreadText_mem_warnings_iff hok).mp hwarned).1, fun c hc => ?_⟩
  · obtain ⟨c, hc, -⟩ := (hl.inputs input.name input.typeName).mpr ⟨input, hinput, rfl, rfl⟩
    refine ⟨c, hc, ?_⟩
    rw [unreadText_mem_warnings_iff hok, and_iff_right ⟨input, hinput, rfl⟩, hbuilt.mentions_iff,
      not_or, hbuilt.mem_unusedInputs_iff hc]
  · have hvalue : c ∈ channels.inputs.values := by
      rw [← hbuilt.inputs]
      exact (List.mem_filter.mp hc).1
    obtain ⟨name, hfind⟩ := SortedMap.mem_values_iff_find?.mp hvalue
    obtain ⟨input, hinput, rfl, -⟩ := (hl.inputs name c.type.name).mp ⟨c, hfind, rfl⟩
    exact ⟨input, hinput, hfind⟩

/-- Nobody reads the input with the name of an output, or the one with a blank at the end of its
name. The report tells of the second one only. -/
theorem unread_warnings_relay :
    (Relay.misnamed.validate Relay.registry none {}).1.isOk = true ∧
      ∃ p t channels placed t₀, Relay.misnamed.build Relay.registry none {} = (.ok p, t) ∧
        Relay.misnamed.layOut Relay.registry {} = (.ok (channels, placed), t₀) ∧
        (∃ c ∈ p.unusedInputs, channels.inputs.find? "raw " = some c ∧
          unreadText "raw " ∈ (Relay.misnamed.validate Relay.registry none {}).1.warnings) ∧
        ∃ c ∈ p.unusedInputs, channels.inputs.find? "first.out" = some c ∧
          unreadText "first.out" ∉ (Relay.misnamed.validate Relay.registry none {}).1.warnings := by
  obtain ⟨p, t, hbuild⟩ :=
    (build_decides Relay.misnamed Relay.registry none {}).succeeds Relay.acceptable_misnamed
  have hok : (Relay.misnamed.validate Relay.registry none {}).1.isOk = true :=
    (isOk_validate_iff ..).mpr
      ⟨staticReport_isOk Relay.acceptable_misnamed (by decide +kernel) (List.cons_ne_nil _ _), p, t,
        hbuild⟩
  obtain ⟨channels, placed, t₀, hlay, hwarned, -⟩ := unread_warnings_iff hok hbuild
  obtain ⟨_, _, _, hlay', hbuilt⟩ := layOut_of_build hbuild
  cases hlay.symm.trans hlay'
  refine ⟨hok, p, t, channels, placed, t₀, hbuild, hlay, ?_, ?_⟩
  · obtain ⟨c, hc, htells⟩ := hwarned _ (.tail _ (.tail _ (.head _)))
    have hunused := (hbuilt.mem_unusedInputs_iff hc).mpr (by decide +kernel)
    exact ⟨c, hunused, hc, htells.mpr ⟨hunused, fun h => absurd h.point_mem (by decide)⟩⟩
  · obtain ⟨c, hc, htells⟩ := hwarned _ (.tail _ (.tail _ (.tail _ (.head _))))
    refine ⟨c, (hbuilt.mem_unusedInputs_iff hc).mpr (by decide +kernel), hc, fun h => ?_⟩
    refine (htells.mp h).2 ⟨Relay.entry "second" " first.out" "extra", .head _, " first.out",
      ?_, "first", "out", by decide +kernel, by decide⟩
    exact SortedMap.mem_values_iff_find?.mpr ⟨"in", rfl⟩

end TypedPipeline.Recipe
