import Mathlib.Data.List.DropRight
import TypedPipeline.Proofs.Recipe.Plan
import TypedPipeline.Proofs.Recipe.Report

/-!
# What can be referred to

A recipe gives names to its inputs, and the contracts of its kinds give names to outputs. References
are texts, and it is by reading such a text that a channel is found again. Not every name survives
this. Blanks at the ends of a text do not count, and a point is read as the end of the name of a
component, but neither the names of inputs nor those of outputs are kept free of blanks and points.

No two channels of a recipe are the same, so it is known which texts lead to a channel: those that
are read as a reference to it, and no others. An input or an output whose own text is read in
another way has a channel to which this text does not lead.

## Implementation notes

That a text leads to the channel of an input says more than that it leads to a channel with the same
type: the number has to be the same. In a recipe that was laid out, different inputs and outputs
have different numbers. So a text that leads to this number is read as this input, and there is
nothing more to be shown.

Names of components need no such care, since they are checked to be words. The two kinds of names
that are not checked are both spoiled by a point and by a blank at the end, and differ at the front.
The text of an input begins with its name, so a blank there is cut off. The name of an output stands
behind a point, so blanks at its front are inside of the text and do no harm. An input may also have
an empty name, which is no reference at all, while the name of an output is never empty.

## Main results

* `Text.trim_eq_self_iff` — texts that stay when they are trimmed
* `Recipe.LaidOut.leads_to_input_iff`, `Recipe.LaidOut.leads_to_output_iff` — the texts that lead to
  a channel
* `Recipe.resolve_own_text_iff` — when inputs and outputs are found by their own texts
-/

namespace TypedPipeline

/-! ### Texts

What is said here of blanks is said of the two ends of a text, because inside of a text they count
like all other characters. -/

/-- A text stays when it is trimmed exactly if no blank stands at its ends. -/
theorem Text.trim_eq_self_iff {s : String} :
    trim s = s ↔ (∀ c, s.toList.head? = some c → isBlank c = false) ∧
      ∀ c, s.toList.getLast? = some c → isBlank c = false := by
  have hchars : trim s = s ↔ (s.toList.dropWhile isBlank).rdropWhile isBlank = s.toList := by
    rw [← String.toList_inj, trim, String.toList_ofList]
    rfl
  rw [hchars]
  generalize s.toList = cs
  have hends : (cs.dropWhile isBlank).rdropWhile isBlank = cs ↔
      cs.dropWhile isBlank = cs ∧ cs.rdropWhile isBlank = cs := by
    refine ⟨fun h => ?_, fun h => by rw [h.1, h.2]⟩
    -- Neither step can have dropped anything, since nothing is missing in the end.
    have hlength := congrArg List.length h
    have hright := (List.rdropWhile_prefix isBlank (cs.dropWhile isBlank)).length_le
    have hleft := List.dropWhile_suffix isBlank (l := cs)
    have hsame := hleft.eq_of_length (Nat.le_antisymm hleft.length_le (by omega))
    exact ⟨hsame, by rwa [hsame] at h⟩
  have hfirst : cs.dropWhile isBlank = cs ↔ ∀ c, cs.head? = some c → isBlank c = false := by
    cases cs <;> simp [List.dropWhile_eq_self_iff]
  have hlast : cs.rdropWhile isBlank = cs ↔ ∀ c, cs.getLast? = some c → isBlank c = false := by
    rw [List.rdropWhile_eq_self_iff]
    rcases List.eq_nil_or_concat cs with rfl | ⟨before, c, rfl⟩ <;> simp
  rw [hends, hfirst, hlast]

/-- The names of outputs are not blank, so each of them has characters. -/
theorem Spec.ne_empty_of_mem_outputs (s : Spec) {f : String × ArtifactType} (hf : f ∈ s.outputs) :
    f.1 ≠ "" := by
  obtain ⟨field, hfield, hsome⟩ := List.mem_filterMap.mp hf
  have hsound := s.sound
  rw [SpecFlaw.of?] at hsound
  split at hsound
  · cases hsound
  · have hblank := ((Field.flaw?_eq_none_iff.mp hsound).1 field hfield).1
    cases field with
    | output name type =>
      cases hsome
      rintro rfl
      cases hblank
    | _ => cases hsome

/-- The text of an output is a reference to it exactly if its name has no point and does not end
with a blank. It may begin with one, behind the point. -/
theorem Reference.namesOutput_text_iff {component output : String}
    (hcomponent : isComponentName component = true) (houtput : output ≠ "") :
    NamesOutput (Producer.text ⟨component, output⟩) component output ↔
      '.' ∉ output.toList ∧ ∀ c, output.toList.getLast? = some c → Text.isBlank c = false := by
  obtain ⟨hnonempty, hword⟩ := Recipe.isComponentName_iff.mp hcomponent
  have htext : Producer.text ⟨component, output⟩ = component ++ "." ++ output := rfl
  have hpoint : '.' ∉ component.toList := fun h => absurd (hword '.' h) (by decide)
  obtain ⟨first, rest, hchars⟩ :=
    List.exists_cons_of_ne_nil (show component.toList ≠ [] by simpa using hnonempty)
  have hhead : (component ++ "." ++ output).toList.head? = some first := by simp [hchars]
  have hfirst : Text.isBlank first = false := Text.isBlank_of_word (hword first (by simp [hchars]))
  have hlast : (component ++ "." ++ output).toList.getLast? = output.toList.getLast? := by
    rw [String.toList_append, List.getLast?_append_of_ne_nil _ (by simpa using houtput)]
  rw [NamesOutput, htext, Text.trim_eq_self_iff, hhead, hlast]
  constructor
  · rintro ⟨⟨-, hblank⟩, -, -, hnone⟩
    exact ⟨hnone, hblank⟩
  · rintro ⟨hnone, hblank⟩
    refine ⟨⟨fun c hc => ?_, hblank⟩, ⟨hnonempty, hpoint⟩, houtput, hnone⟩
    cases hc
    exact hfirst

/-! ### Texts that lead to a channel

Two references may be different texts and lead to one channel. But one text never leads to two
channels. -/

namespace Recipe

variable {r : Recipe} {registry : Registry} {channels : Channels} {placed : List Placed}
  {q : Placed} {s s' : Store} {p : Pipeline} {reference name output : String} {c : Channel}

namespace LaidOut

theorem nodup_inputs (h : r.LaidOut registry channels placed s) :
    (channels.inputs.entries.map fun e => e.2.id).Nodup := by
  have hnodup := h.nodup
  rw [List.map_append, List.nodup_append] at hnodup
  simpa [SortedMap.values, Function.comp_def] using hnodup.1

theorem nodup_outputs (h : r.LaidOut registry channels placed s) (hq : q ∈ placed) :
    (q.outputs.entries.map fun e => e.2.id).Nodup := by
  have hnodup := h.nodup
  rw [List.map_append, List.nodup_append, outputsOf, List.map_flatMap, List.nodup_flatMap] at hnodup
  simpa [SortedMap.values, Function.comp_def] using hnodup.2.1.1 q hq

/-- The texts that lead to the channel of an input are the references to it. A reference to anything
else leads to another number. -/
theorem leads_to_input_iff (h : r.LaidOut registry channels placed s)
    (hc : channels.inputs.find? name = some c) :
    (∃ d, channels.resolve reference = .ok d ∧ d.id = c.id) ↔
      Reference.NamesInput reference name := by
  constructor
  · rintro ⟨d, hd, hid⟩
    rcases resolve_ok_iff.mp hd with ⟨other, hreads, hfind⟩ |
      ⟨component, output, outputs, -, hlookup, hfind⟩
    · have hsame := List.inj_on_of_nodup_map h.nodup_inputs (SortedMap.find?_eq_some_iff.mp hfind)
        (SortedMap.find?_eq_some_iff.mp hc) hid
      cases hsame
      exact hreads
    · obtain ⟨q, hq, -, rfl⟩ := h.exists_placed_of_lookup hlookup
      exact absurd hid.symm (h.input_ne_output hq (SortedMap.mem_values_iff_find?.mpr ⟨name, hc⟩)
        (SortedMap.mem_values_iff_find?.mpr ⟨output, hfind⟩))
  · intro hreads
    exact ⟨c, (resolve_input_iff hreads).mpr hc, rfl⟩

/-- The texts that lead to the channel of an output are the references to it. Names of entries have
to differ, since otherwise a reference means the first of several entries. -/
theorem leads_to_output_iff (h : r.LaidOut registry channels placed s)
    (hnames : (r.entries.map Entry.name).Nodup) (hq : q ∈ placed)
    (hc : q.outputs.find? output = some c) :
    (∃ d, channels.resolve reference = .ok d ∧ d.id = c.id) ↔
      Reference.NamesOutput reference q.entry.name output := by
  have hvalue := SortedMap.mem_values_iff_find?.mpr ⟨output, hc⟩
  constructor
  · rintro ⟨d, hd, hid⟩
    rcases resolve_ok_iff.mp hd with ⟨name, -, hfind⟩ |
      ⟨component, other, outputs, hreads, hlookup, hfind⟩
    · exact absurd hid
        (h.input_ne_output hq (SortedMap.mem_values_iff_find?.mpr ⟨name, hfind⟩) hvalue)
    · obtain ⟨q', hq', rfl, rfl⟩ := h.exists_placed_of_lookup hlookup
      cases h.owner_unique hq' hq (SortedMap.mem_values_iff_find?.mpr ⟨other, hfind⟩) hvalue hid
      have hsame := List.inj_on_of_nodup_map (h.nodup_outputs hq)
        (SortedMap.find?_eq_some_iff.mp hfind) (SortedMap.find?_eq_some_iff.mp hc) hid
      cases hsame
      exact hreads
  · intro hreads
    exact ⟨c, (resolve_output_iff hreads).mpr ⟨q.outputs, h.lookup_of_mem hnames hq, hc⟩, rfl⟩

end LaidOut

/-- Every declared input has a channel in the pipeline. The name of the input leads to it if it is
not empty, has no point, and neither begins nor ends with a blank; otherwise it does not. Every
output that the contract of a component declares has a channel, which it produces. The text of the
producer leads to it if the name of the output has no point and does not end with a blank; otherwise
it does not. -/
theorem resolve_own_text_iff {rootGiven : Option String}
    (h : r.build registry rootGiven s = (.ok p, s')) :
    ∃ channels placed s₀, r.layOut registry s = (.ok (channels, placed), s₀) ∧
      (∀ input ∈ r.inputs, ∃ c ∈ p.inputs, channels.inputs.find? input.name = some c ∧
        (channels.resolve input.name = .ok c ↔ input.name ≠ "" ∧ '.' ∉ input.name.toList ∧
          Text.trim input.name = input.name)) ∧
      ∀ k ∈ p.components, ∀ f ∈ k.spec.outputs, ∃ c, k.outputs.find? f.1 = some c ∧
        (s'.channel c).producer = some ⟨k.name, f.1⟩ ∧
        (channels.resolve (Producer.text ⟨k.name, f.1⟩) = .ok c ↔ '.' ∉ f.1.toList ∧
          ∀ a, f.1.toList.getLast? = some a → Text.isBlank a = false) := by
  obtain ⟨channels, placed, s₀, hlay, hbuilt⟩ := layOut_of_build h
  obtain ⟨s₁, hl⟩ := hbuilt.laidOut
  have hacceptable := ((build_decides r registry rootGiven s).sound p s' h).1
  refine ⟨channels, placed, s₀, hlay, fun input hinput => ?_, fun k hk f hf => ?_⟩
  · obtain ⟨c, hc, -⟩ := (hl.inputs input.name input.typeName).mpr ⟨input, hinput, rfl, rfl⟩
    have hvalue := SortedMap.mem_values_iff_find?.mpr ⟨input.name, hc⟩
    refine ⟨c, by rwa [hbuilt.inputs], hc, fun hresolve => ?_, fun ⟨hne, hpoint, htrim⟩ => ?_⟩
    · obtain ⟨htrim, hne, hpoint⟩ := (hl.leads_to_input_iff hc).mp ⟨c, hresolve, rfl⟩
      exact ⟨hne, hpoint, htrim⟩
    · exact (resolve_input_iff ⟨htrim, hne, hpoint⟩).mpr hc
  · obtain ⟨q, hq, hmade⟩ := hbuilt.constructed.exists_placed k (Array.mem_toList_iff.mpr hk)
    obtain ⟨kind, -, hentry⟩ := hacceptable.entries q.entry (hl.mem_entries_iff.mpr ⟨q, hq, rfl⟩)
    have hname : isComponentName k.name = true := by
      rw [hmade.name]
      exact isComponentName_iff.mpr ⟨hentry.nonempty, hentry.word⟩
    have hdeclared : f ∈ q.kind.spec.outputs := by
      rw [← hmade.spec]
      exact hf
    obtain ⟨c, hc, -⟩ := ((hl.declared q hq).outputs f.1 f.2).mpr hdeclared
    rw [hmade.outputs, ← Reference.namesOutput_text_iff hname (k.spec.ne_empty_of_mem_outputs hf)]
    refine ⟨c, hc, ?_, ?_⟩
    · rw [hmade.name]
      exact hbuilt.producer q hq (f.1, c) (SortedMap.find?_eq_some_iff.mp hc)
    · rw [hmade.name]
      refine ⟨fun hresolve => ?_, fun hreads => ?_⟩
      · exact (hl.leads_to_output_iff hbuilt.nodup_names hq hc).mp ⟨c, hresolve, rfl⟩
      · exact (resolve_output_iff hreads).mpr
          ⟨q.outputs, hl.lookup_of_mem hbuilt.nodup_names hq, hc⟩

/-- An acceptable recipe may declare more inputs. What its entries refer to stays what it is, and
the new inputs need not be read by anyone. -/
theorem Acceptable.moreInputs (h : r.Acceptable registry) {more : List Input}
    (hmore : ∀ input ∈ more, input.Acceptable registry.types)
    (hnames : ((r.inputs ++ more).map Input.name).Nodup) :
    ({ r with inputs := r.inputs ++ more } : Recipe).Acceptable registry where
  version := h.version
  inputs := List.forall_mem_append.mpr ⟨h.inputs, hmore⟩
  inputNames := hnames
  entries e he := by
    obtain ⟨kind, hkind, hentry⟩ := h.entries e he
    refine ⟨kind, hkind, { hentry with references := fun f hf reference hreference => ?_ }⟩
    rcases hentry.references f hf reference hreference with
      ⟨name, hreads, input, hinput, hdeclared⟩ | houtput
    · exact .inl ⟨name, hreads, input, List.mem_append_left _ hinput, hdeclared⟩
    · exact .inr houtput
  entryNames := h.entryNames
  acyclic := h.acyclic

end Recipe

namespace Relay

/-- Inputs whose names are read as something else: as another input, and as an output. -/
def misnamedInputs : List Recipe.Input :=
  [⟨"raw ", "Table", none, []⟩, ⟨"first.out", "Table", none, []⟩]

def misnamed : Recipe := { recipe with inputs := recipe.inputs ++ misnamedInputs }

theorem acceptable_misnamed : misnamed.Acceptable registry := by
  refine acceptable_recipe.moreInputs ?_ (by decide)
  simp only [misnamedInputs, List.forall_mem_cons]
  exact ⟨⟨⟨table, rfl⟩, by simp⟩, ⟨⟨table, rfl⟩, by simp⟩, by simp⟩

end Relay

namespace Recipe

/-- Of an input without a blank at its end, one with such a blank and one with the name of an
output, only the first one is found under its name. Under that of the third one, the output is
found. -/
theorem resolve_own_text_relay :
    ∃ p s' channels placed s₀, Relay.misnamed.build Relay.registry none {} = (.ok p, s') ∧
      Relay.misnamed.layOut Relay.registry {} = (.ok (channels, placed), s₀) ∧
      (∃ c ∈ p.inputs, channels.inputs.find? "raw" = some c ∧ channels.resolve "raw" = .ok c) ∧
      (∃ c ∈ p.inputs, channels.inputs.find? "raw " = some c ∧ channels.resolve "raw " ≠ .ok c) ∧
      (∃ c ∈ p.inputs, channels.inputs.find? "first.out" = some c ∧
        channels.resolve "first.out" ≠ .ok c) ∧
      ∃ k ∈ p.components, ∃ c, k.outputs.find? "out" = some c ∧
        channels.resolve "first.out" = .ok c := by
  obtain ⟨p, s', hbuild⟩ :=
    (build_decides Relay.misnamed Relay.registry none {}).succeeds Relay.acceptable_misnamed
  obtain ⟨channels, placed, s₀, hlay, hinputs, houtputs⟩ := resolve_own_text_iff hbuild
  refine ⟨p, s', channels, placed, s₀, hbuild, hlay, ?_, ?_, ?_, ?_⟩
  · obtain ⟨c, hc, hfind, hresolve⟩ := hinputs _ (.head _)
    exact ⟨c, hc, hfind, hresolve.mpr (by decide +kernel)⟩
  · obtain ⟨c, hc, hfind, hresolve⟩ := hinputs _ (.tail _ (.tail _ (.head _)))
    exact ⟨c, hc, hfind, fun h => absurd (hresolve.mp h) (by decide +kernel)⟩
  · obtain ⟨c, hc, hfind, hresolve⟩ := hinputs _ (.tail _ (.tail _ (.tail _ (.head _))))
    exact ⟨c, hc, hfind, fun h => absurd (hresolve.mp h) (by decide +kernel)⟩
  · obtain ⟨_, _, _, _, hbuilt⟩ := layOut_of_build hbuild
    obtain ⟨_, hl⟩ := hbuilt.laidOut
    obtain ⟨q, hq, hentry⟩ := hl.mem_entries_iff.mp
      (show Relay.entry "first" "raw" "extra " ∈ Relay.misnamed.entries from .tail _ (.head _))
    obtain ⟨k, hk, hmade⟩ := hbuilt.constructed.exists_component q hq
    have hkind := (hl.declared q hq).kind
    rw [hentry] at hkind
    have hspec : k.spec = Relay.spec := by
      rw [hmade.spec]
      exact congrArg Kind.spec (Option.some.inj hkind).symm
    obtain ⟨c, hc, -, hresolve⟩ := houtputs k (by simpa using hk) ("out", Relay.table)
      (by rw [hspec]; exact .head _)
    refine ⟨k, by simpa using hk, c, hc, ?_⟩
    rw [hmade.name, hentry] at hresolve
    refine hresolve.mpr ⟨by decide, fun a ha => ?_⟩
    obtain rfl : 't' = a := Option.some.inj ha
    decide

end Recipe

end TypedPipeline
