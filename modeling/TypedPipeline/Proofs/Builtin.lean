import Mathlib.Data.List.TakeWhile
import TypedPipeline.Builtin
import TypedPipeline.Proofs.Executor

/-!
# What the built-in kinds leave behind

Each of the four kinds reads, checks and writes files before it writes to its output. Whatever files
there are and whichever operation on them fails, a run that fails has not changed an artifact, so it
can be made again with the same artifacts.

Files are not artifacts: what was copied or written before a failure stays where it is.

## Implementation notes

All four kinds have one shape: read and check, make a directory, write a file, and then write the
properties and the location of the output. Each of them is a chain of quiet steps with a sealing one
at its end, and the theorem about all kinds goes through the registry.

The statement is about one attempt and the next one. It does not say that the second attempt
succeeds; it says that it goes as if the first one had not been made, with whatever the machine
answers by then.

## Main definitions

* `Path.IsName`, `Path.Inside` — paths of files directly in a directory

## Main results

* `Path.isName_of_fileName?` — the last name of a path is no path
* `Builtin.delivers_fileImport`, `Builtin.delivers_lineStats`, `Builtin.delivers_checksum`,
  `Builtin.delivers_notify` — one kind each
* `Builtin.run_all_or_nothing` — all kinds of the registry
-/

namespace TypedPipeline

/-! ### Names of files -/

namespace Path

/-- The name of something in a directory: not a path, and neither the directory itself nor the one
above. -/
structure IsName (name : String) : Prop where
  nonempty : name ≠ ""
  no_slash : '/' ∉ name.toList
  not_here : name ≠ "."
  not_above : name ≠ ".."

/-- The path of something directly in a directory. The name is that of a single file, so the path
does not lead out of the directory. -/
def Inside (dir path : String) : Prop := ∃ name, IsName name ∧ path = join dir name

/-- The last name of a path is that of something in a directory. -/
theorem isName_of_fileName? {p name : String} (h : fileName? p = some name) : IsName name := by
  have hslash : '/' ∉ (lastPart p).1 := by
    intro hmem
    simpa using List.mem_takeWhile_imp hmem
  rw [fileName?] at h
  generalize (lastPart p).1 = part at h hslash
  split at h
  · cases h
  · cases h
  · cases h
  · rename_i hempty hhere habove
    rw [Option.some.injEq] at h
    have hname : name.toList = part.reverse := by rw [← h, String.toList_ofList]
    have hpart : part = name.toList.reverse := by rw [hname, List.reverse_reverse]
    refine ⟨?_, ?_, ?_, ?_⟩
    · rintro rfl
      exact hempty hpart
    · rwa [hname, List.mem_reverse]
    · rintro rfl
      exact hhere hpart
    · rintro rfl
      exact habove hpart

end Path

namespace Builtin

open Work (Quiet Seals Delivers)

variable {W α : Type} {host : Host (StateM W)} {h : Work.Handed} {field : String} {slot : Slot}
  {a : Artifact} {K : Artifact → String → Prop}

/-! ### Steps that change nothing

These are the steps of which the four kinds are made up, up to the writes. -/

theorem quiet_parameter (parameters : Parameters) (name : String) (expected : ScalarType)
    (value? : Scalar → Option α) :
    Quiet host h (parameter parameters name expected value?) fun _ => True := by
  rw [parameter]
  cases (parameters.find? name).bind value? with
  | some v => exact .pure trivial
  | none => exact .fail _

theorem quiet_inputPath (field : String) :
    Quiet host h (inputPath h.offer field) fun _ => True :=
  (Quiet.input field).bind fun slot _ => .requireUri slot

theorem quiet_readBytes (path : String) : Quiet host h (readBytes path) fun _ => True :=
  (Quiet.request _).bind fun _ _ => .ofIo _ _

theorem quiet_readText (path : String) : Quiet host h (readText path) fun _ => True :=
  (quiet_readBytes path).bind fun _ _ => .ofIo _ _

theorem quiet_writeText (path text : String) : Quiet host h (writeText path text) fun _ => True :=
  (Quiet.request _).bind fun _ _ => .ofIo _ _

/-- The directory of an output is the staging location of its artifact. -/
theorem quiet_stagingDirectory (ha : h.artifact? slot = some a) :
    Quiet host h (stagingDirectory slot) fun dir => a.staging = some dir := by
  refine .look fun v hv => ?_
  rw [ha, Option.map_eq_some_iff] at hv
  obtain ⟨view, rfl, rfl⟩ := hv
  cases hstaging : view.artifact.staging with
  | none =>
    simp only [hstaging]
    exact .fail _
  | some dir =>
    simp only [hstaging]
    exact (Quiet.request _).bind fun made _ => (Quiet.ofIo _ _).bind fun _ _ => .pure rfl

/-! ### The four kinds -/

/-- A location directly in the directory of the artifact. -/
def InStaging (a : Artifact) (uri : String) : Prop :=
  ∃ dir, a.staging = some dir ∧ Path.Inside dir uri

/-- What is done once an output is to be written: its directory is made, its file is written, and
its properties and location come last. -/
theorem delivers_output {f : Slot → Work Unit}
    (hf : ∀ slot a, h.outputs.find? field = some [a] → h.artifact? slot = some a →
      Delivers host h field K (f slot)) :
    Delivers host h field K (h.offer.output field >>= f) := by
  refine (Quiet.output field).delivers ?_
  rintro slot ⟨a, ha, rfl⟩
  exact hf _ a ha (Work.Handed.artifact?_of_find? .output ha)

/-- A file of a fixed name is written for an output, then a property, then the location. -/
theorem delivers_written {name : String} (hname : Path.IsName name) (text property : String)
    (value : Scalar) :
    Delivers host h field InStaging (do
      let output ← h.offer.output field
      let destination := Path.join (← stagingDirectory output) name
      writeText destination text
      Work.apply output (.setProperty property value)
      Work.apply output (.setUri destination)) := by
  refine delivers_output fun slot a ha hslot => ?_
  refine (quiet_stagingDirectory hslot).delivers fun dir hdir => ?_
  refine (quiet_writeText _ _).delivers fun _ _ => ?_
  exact ((Seals.setUri hslot _).setProperty hslot _ _).delivers ha ⟨dir, hdir, name, hname, rfl⟩

theorem delivers_fileImport (parameters : Parameters) :
    Delivers host h "data" InStaging (fileImport h.offer parameters) := by
  refine (quiet_parameter _ _ _ _).delivers fun source _ => ?_
  refine (Quiet.request _).delivers fun isFile _ => ?_
  split
  · exact .fail _
  · refine delivers_output fun slot a ha hslot => ?_
    refine (quiet_stagingDirectory hslot).delivers fun dir hdir => ?_
    refine (Quiet.request _).delivers fun copied _ => ?_
    refine (Quiet.ofIo _ _).delivers fun size _ => ?_
    refine (((Seals.setUri hslot _).setProperty hslot _ _).setProperty hslot _ _).delivers ha ?_
    refine ⟨dir, hdir, _, ?_, rfl⟩
    cases hname : Path.fileName? source with
    | none => exact ⟨by decide, by decide, by decide, by decide⟩
    | some name => exact Path.isName_of_fileName? hname

theorem delivers_lineStats (parameters : Parameters) :
    Delivers host h "stats" InStaging (lineStats h.offer parameters) := by
  refine (quiet_parameter _ _ _ _).delivers fun maxLines _ => ?_
  split
  · exact .fail _
  refine (quiet_parameter _ _ _ _).delivers fun rate _ => ?_
  split
  · exact .fail _
  refine (quiet_inputPath _).delivers fun source _ => ?_
  refine (quiet_readText _).delivers fun text _ => ?_
  exact delivers_written ⟨by decide, by decide, by decide, by decide⟩ _ _ _

theorem delivers_checksum (parameters : Parameters) :
    Delivers host h "digest" InStaging (checksum h.offer parameters) := by
  refine (quiet_inputPath _).delivers fun source _ => ?_
  refine (quiet_readBytes _).delivers fun bytes _ => ?_
  exact delivers_written ⟨by decide, by decide, by decide, by decide⟩ _ _ _

theorem delivers_notify (parameters : Parameters) :
    Delivers host h "receipt" InStaging (notify h.offer parameters) := by
  refine (quiet_parameter _ _ _ _).delivers fun recipient _ => ?_
  split
  · exact .fail _
  refine (quiet_parameter _ _ _ _).delivers fun dryRun _ => ?_
  refine (quiet_inputPath _).delivers fun source _ => ?_
  refine (quiet_readText _).delivers fun text _ => ?_
  split
  · exact .fail _
  refine (Quiet.note _).delivers fun _ _ => ?_
  exact delivers_written ⟨by decide, by decide, by decide, by decide⟩ _ _ _

/-! ### All kinds of the registry

The registry is a fixed one, so its kinds can be listed. -/

theorem mem_of_find?_registry {name : String} {kind : Kind}
    (hkind : registry.kinds.find? name = some kind) :
    kind ∈ [⟨fileImportSpec, fileImport⟩, ⟨lineStatsSpec, lineStats⟩, ⟨checksumSpec, checksum⟩,
      (⟨notifySpec, notify⟩ : Kind)] := by
  simp only [registry, register, Registry.register, SortedMap.find?_insert] at hkind
  split at hkind
  · cases hkind
    simp
  split at hkind
  · cases hkind
    simp
  split at hkind
  · cases hkind
    simp
  split at hkind
  · cases hkind
    simp
  · cases hkind

/-- Every kind of the registry has one output, to which it delivers. -/
theorem exists_delivers {name : String} {kind : Kind}
    (hkind : registry.kinds.find? name = some kind) (host : Host (StateM W)) (h : Work.Handed)
    (parameters : Parameters) :
    ∃ field type, kind.spec.outputs = [(field, type)] ∧
      Delivers host h field InStaging (kind.executor h.offer parameters) := by
  have hmem := mem_of_find?_registry hkind
  simp only [List.mem_cons, List.not_mem_nil, or_false] at hmem
  rcases hmem with rfl | rfl | rfl | rfl
  · exact ⟨"data", dataset, rfl, delivers_fileImport parameters⟩
  · exact ⟨"stats", statistics, rfl, delivers_lineStats parameters⟩
  · exact ⟨"digest", digest, rfl, delivers_checksum parameters⟩
  · exact ⟨"receipt", receipt, rfl, delivers_notify parameters⟩

/-- A built-in kind is run on any artifacts and parameters, and a machine answers as it likes. If
that fails, no artifact has changed, and another attempt goes as it would have gone at first. If it
is done, the one artifact of the one output has got a location directly in its staging directory,
and no other artifact has changed. -/
theorem run_all_or_nothing {name : String} {kind : Kind}
    (hkind : registry.kinds.find? name = some kind) (host : Host (StateM W)) (h : Work.Handed)
    (parameters : Parameters) (s s' : Store) (w w' : W) (result : Except ExecutionError Unit)
    (hrun : (kind.executor h.offer parameters).run host h s w = ((result, s'), w')) :
    (∀ e, result = .error e → (∀ a, s'.artifact a = s.artifact a) ∧
        ∀ v, ((kind.executor h.offer parameters).run host h s' v).1.1 =
            ((kind.executor h.offer parameters).run host h s v).1.1 ∧
          ∀ a, ((kind.executor h.offer parameters).run host h s' v).1.2.artifact a =
            ((kind.executor h.offer parameters).run host h s v).1.2.artifact a) ∧
      (result = .ok () → ∃ field type a dir uri, kind.spec.outputs = [(field, type)] ∧
        h.outputs.find? field = some [a] ∧ a.staging = some dir ∧ Path.Inside dir uri ∧
        (s.artifact a).uri = none ∧ (s'.artifact a).uri = some uri ∧
        ∀ b : Artifact, b.id ≠ a.id → s'.artifact b = s.artifact b) := by
  obtain ⟨field, type, houtputs, hdelivers⟩ := exists_delivers hkind host h parameters
  have herror := hdelivers.error s w
  have hok := hdelivers.ok s w
  rw [hrun] at herror hok
  refine ⟨fun e he => ?_, fun hdone => ?_⟩
  · have hsame := Store.artifact_congr (herror e he)
    refine ⟨hsame, fun v => ?_⟩
    obtain ⟨hresult, -, hartifacts⟩ :=
      (kind.executor h.offer parameters).run_congr host h hsame v
    exact ⟨hresult, hartifacts⟩
  · obtain ⟨a, uri, ha, ⟨dir, hdir, hinside⟩, hlocates⟩ := hok hdone
    exact ⟨field, type, a, dir, uri, houtputs, ha, hdir, hinside, hlocates.before,
      hlocates.after, hlocates.others⟩

/-- A disk on which there is no room until something has been copied in vain. -/
def crowdedDisk : Host (StateM Nat)
  | .isFile _ => pure true
  | .isDirectory _ => pure true
  | .read _ => pure (.error .notFound)
  | .write _ _ => pure (.ok ())
  | .copy _ _ => fun n =>
    (if n = 0 then .error (.other "No space left on device (os error 28)") else .ok 7, n + 1)
  | .createDirectories _ => pure (.ok ())
  | .list _ => pure (.ok [])
  | .setting _ => pure none
  | .ticks => pure (0 : Nat)
  | .time => pure (0 : Nat)

/-- The artifact of an output of `file_import`. -/
def imported : Artifact := ⟨⟨1⟩, dataset, some "out/copy/data/run"⟩

/-- A copy that fails for want of room, and succeeds when it is tried again. -/
theorem run_crowdedDisk :
    let h : Work.Handed := ⟨.empty, .ofList [("data", [imported])]⟩
    let parameters : Parameters := .ofList [("source", .string "in/raw.txt")]
    ∃ e s₁ s₂, (fileImport h.offer parameters).run crowdedDisk h {} 0 = ((.error e, s₁), 1) ∧
      s₁.artifact imported = {} ∧
      (fileImport h.offer parameters).run crowdedDisk h s₁ 1 = ((.ok (), s₂), 2) ∧
      ∃ uri, (s₂.artifact imported).uri = some uri ∧ Path.Inside "out/copy/data/run" uri := by
  intro h parameters
  have hkind : registry.kinds.find? "file_import" = some ⟨fileImportSpec, fileImport⟩ := rfl
  obtain ⟨e, s₁, s₂, hfirst, hagain⟩ : ∃ e s₁ s₂,
      (fileImport h.offer parameters).run crowdedDisk h {} 0 = ((.error e, s₁), 1) ∧
        (fileImport h.offer parameters).run crowdedDisk h s₁ 1 = ((.ok (), s₂), 2) :=
    ⟨_, _, _, by rfl, by rfl⟩
  have hkept := (run_all_or_nothing hkind crowdedDisk h parameters {} s₁ 0 1 _ hfirst).1 e rfl
  obtain ⟨field, type, a, dir, uri, houtputs, ha, hdir, hinside, -, huri, -⟩ :=
    (run_all_or_nothing hkind crowdedDisk h parameters s₁ s₂ 1 2 _ hagain).2 rfl
  cases houtputs
  cases ha
  cases hdir
  exact ⟨e, s₁, s₂, hfirst, hkept.1 imported, hagain, uri, huri, hinside⟩

end Builtin

end TypedPipeline
