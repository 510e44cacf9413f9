import TypedPipeline.ArtifactMap
import TypedPipeline.Proofs.Decision
import TypedPipeline.Proofs.Json.Decode
import TypedPipeline.Proofs.Run.Sight

/-!
# What becomes of a map of artifacts as JSON

A map of artifacts is written as the records of its artifacts and read as new artifacts with the
records that the text tells. Names, the order of artifacts, their types and locations, and all
properties but floats come back as they were. Floats come back as `Binary64.reread?` says: one that
is not finite does not come back at all, and with it the whole text is refused; one with many digits
may come back as its neighbour.

## How the proof goes

A text is read as its tree, whatever is in it (`JsonTree.ofText?_compact`). Decoding the tree gives
the records as they were written, with `reread?` applied to each float; this needs no store. Then
artifacts are made from the records, one after the other, and each of them has its record when it is
made and keeps it while others are made.

## What is compared

Two maps of artifacts are compared by their records, since the artifacts that are read are new ones.
"Came back as it was" means that the records are equal as maps: the same names and, under each name,
the same records in the same order. Staging locations are not part of a record.

Types have to be registered when a text is read; that is a hypothesis of the theorem. A map whose
types are unknown to the reader is refused by it.

## Main definitions

* `ArtifactMap.records` — the records of a map
* `ArtifactRecord.reread?` — what a record has become when it has been written and read
* `ArtifactMap.Registered` — the types of all artifacts are known

## Main results

* `ArtifactRecord.ofJson?_ofDatum` — one record
* `ArtifactMap.ofRecords_decides` — new artifacts with given records
* `ArtifactMap.ofJsonText_jsonText` — a whole map
* `ArtifactMap.survives_iff` — which maps come back as they were
-/

namespace TypedPipeline

open Store (Spares)

/-! ### Records

A record has three fields. The location is left out when there is none, and the reader takes a field
that is left out for an absent one. -/

namespace ArtifactRecord

/-- What a record has become when it has been written and read. -/
def reread? (r : ArtifactRecord) : Option ArtifactRecord :=
  (r.properties.traverse? Scalar.reread?).map fun p => { r with properties := p }

theorem typeName_of_reread? {r r' : ArtifactRecord} (h : r.reread? = some r') :
    r'.typeName = r.typeName := by
  obtain ⟨p, -, rfl⟩ := Option.map_eq_some_iff.mp h
  rfl

theorem reread?_eq_self_iff {r : ArtifactRecord} :
    r.reread? = some r ↔ ∀ p ∈ r.properties.entries, p.2.reread? = some p.2 := by
  rw [← SortedMap.traverse?_eq_self_iff, reread?]
  obtain ⟨typeName, uri, properties⟩ := r
  cases properties.traverse? Scalar.reread? <;> simp

theorem isSome_reread? {r : ArtifactRecord} :
    r.reread?.isSome ↔ ∀ p ∈ r.properties.entries, p.2.reread?.isSome := by
  rw [reread?, Option.isSome_map, SortedMap.isSome_traverse?]

/-- A location that is absent is left out, and a field that is left out is absent. -/
theorem ofJson?_ofDatum (r : ArtifactRecord) :
    ofJson? (JsonTree.ofDatum r.datum) = r.reread? := by
  have hproperties : JsonTree.parameters? (JsonTree.ofDatum (.ofParameters r.properties)) =
      r.properties.traverse? Scalar.reread? :=
    JsonTree.map?_ofDatum JsonTree.scalar?_ofDatum r.properties
  obtain ⟨typeName, uri, properties⟩ := r
  dsimp only at hproperties
  cases uri <;>
    simp [datum, JsonTree.ofDatum, JsonTree.ofMembers, ofJson?, JsonTree.record?,
      JsonTree.textValue?, JsonTree.optional?, hproperties, reread?, Option.map_eq_bind]

end ArtifactRecord

/-! ### New artifacts

Numbers are given out in order and a new artifact takes a number that none has had, so what was made
before stays. -/

namespace ArtifactMap

open StoreM (Decides)

variable {types : TypeRegistry} {s s' : Store} {m : ArtifactMap}

/-- The artifacts have these records, and their numbers have been given out. -/
def Hold (s : Store) (artifacts : List Artifact) (records : List ArtifactRecord) : Prop :=
  artifacts.map s.record = records ∧ ∀ a ∈ artifacts, a.id.number < s.nextArtifact

/-- Artifacts keep their records as long as only others are made. -/
theorem Hold.of_spares {artifacts : List Artifact} {records : List ArtifactRecord}
    (h : Hold s artifacts records) (hs : Spares (fun _ => True) s s') :
    Hold s' artifacts records := by
  refine ⟨?_, fun a ha => Nat.lt_of_lt_of_le (h.2 a ha) hs.nextArtifact⟩
  rw [← h.1]
  refine List.map_congr_left fun a ha => ?_
  rw [Store.record, Store.record, hs.artifact a (h.2 a ha) trivial]

/-- A record of a registered type makes one new artifact. It is refused only for its type. -/
theorem ofRecord_decides (types : TypeRegistry) (s : Store) (r : ArtifactRecord) :
    Decides (Store.ofRecord types r) s (types.lookup? r.typeName).isSome fun a s' =>
      Hold s' [a] [r] ∧ Spares (fun _ => True) s s' := by
  cases htype : types.lookup? r.typeName with
  | none =>
    have herror : Store.ofRecord types r s = (.error (.unknownType r.typeName), s) := by
      rw [Store.ofRecord, htype]
      rfl
    exact (Decides.of_error herror).congr (by simp)
  | some type =>
    have hok : Store.ofRecord types r s =
        (.ok (s.newArtifact type none ⟨r.uri, r.properties⟩).1,
          (s.newArtifact type none ⟨r.uri, r.properties⟩).2) := by
      rw [Store.ofRecord, htype]
      rfl
    refine (Decides.of_ok hok ⟨⟨?_, ?_⟩, Store.spares_newArtifact _ s _ _ _⟩).congr (by simp)
    · rw [List.map_singleton, Store.record, Store.artifact_newArtifact_self, Artifact.record]
      have hname : (s.newArtifact type none ⟨r.uri, r.properties⟩).1.type.name = r.typeName :=
        types.lookup?_name htype
      rw [hname]
    · rw [List.forall_mem_singleton]
      exact Nat.lt_succ_self _

/-- A list of records makes as many artifacts, in this order. -/
theorem mapM_ofRecord_decides (types : TypeRegistry) (s : Store) (records : List ArtifactRecord) :
    Decides (records.mapM (Store.ofRecord types)) s
      (∀ r ∈ records, (types.lookup? r.typeName).isSome) fun l s' =>
        Hold s' l records ∧ Spares (fun _ => True) s s' := by
  induction records generalizing s with
  | nil => exact (Decides.pure ⟨⟨rfl, by simp⟩, .refl s⟩).congr (by simp)
  | cons r records ih =>
    rw [List.mapM_cons]
    refine ((ofRecord_decides types s r).bind fun a s' _ ha => (ih s').andThen fun l s'' _ hl =>
      .pure ?_).congr (by rw [List.forall_mem_cons])
    obtain ⟨hone, hspared⟩ := ha
    obtain ⟨hrest, hspared'⟩ := hl
    obtain ⟨hrecord, hnumber⟩ := hone.of_spares hspared'
    refine ⟨⟨?_, ?_⟩, hspared.trans hspared'⟩
    · rw [List.map_cons, hrest.1]
      rw [List.map_singleton] at hrecord
      exact congrArg (· :: records) (List.singleton_inj.mp hrecord)
    · rw [List.forall_mem_singleton] at hnumber
      exact List.forall_mem_cons.mpr ⟨hnumber, hrest.2⟩

/-- The records of all entries make new artifacts under the same names. -/
theorem ofRecords_decides (types : TypeRegistry) (s : Store)
    (entries : List (String × List ArtifactRecord)) :
    Decides (ofRecords types entries) s
      (∀ e ∈ entries, ∀ r ∈ e.2, (types.lookup? r.typeName).isSome) fun l s' =>
        List.Forall₂ (fun e' e => e'.1 = e.1 ∧ Hold s' e'.2 e.2) l entries ∧
          Spares (fun _ => True) s s' := by
  induction entries generalizing s with
  | nil => exact (Decides.pure ⟨.nil, .refl s⟩).congr (by simp)
  | cons e entries ih =>
    obtain ⟨name, records⟩ := e
    rw [ofRecords]
    refine ((mapM_ofRecord_decides types s records).bind fun a s' _ ha =>
      (ih s').andThen fun l s'' _ hl => .pure ?_).congr (by rw [List.forall_mem_cons])
    exact ⟨.cons ⟨rfl, ha.1.of_spares hl.2⟩ hl.1, ha.2.trans hl.2⟩

/-! ### Maps -/

/-- The records of the artifacts of a map. -/
def records (s : Store) (m : ArtifactMap) : TextMap (List ArtifactRecord) :=
  m.map fun _ artifacts => artifacts.map s.record

/-- What the records of a map have become when they have been written and read. -/
def reread? (records : TextMap (List ArtifactRecord)) : Option (TextMap (List ArtifactRecord)) :=
  records.traverse? (List.mapM ArtifactRecord.reread?)

/-- The types of all artifacts of a map are registered. -/
def Registered (types : TypeRegistry) (m : ArtifactMap) : Prop :=
  ∀ e ∈ m.entries, ∀ a ∈ e.2, (types.lookup? a.type.name).isSome

/-- The text of a map tells its records. Numbers of artifacts are not written, so they cannot come
back. -/
theorem decode_jsonText (s : Store) (m : ArtifactMap) :
    (JsonTree.ofText? (m.jsonText s)).bind
      (JsonTree.map? (JsonTree.list? ArtifactRecord.ofJson?)) = reread? (m.records s) := by
  have hdatum : datum s m =
      .ofMap (fun l => .array (l.map ArtifactRecord.datum)) (m.records s) := by
    simp [datum, Datum.ofMap, records, SortedMap.map, Function.comp_def]
  rw [jsonText, JsonTree.ofText?_compact, Option.bind_some, hdatum]
  exact JsonTree.map?_ofDatum (JsonTree.list?_ofDatum ArtifactRecord.ofJson?_ofDatum) _

/-- Each list comes back with as many records, in their order. Whether the records are the same
depends on the floats in them. -/
theorem map_reread? {R R' : TextMap (List ArtifactRecord)} (h : reread? R = some R') :
    R.map (fun _ => List.map ArtifactRecord.reread?) = R'.map fun _ => List.map some := by
  refine SortedMap.ext_find? fun name => ?_
  have hfind := congrArg (SortedMap.find? · name) (SortedMap.traverse?_eq_some_iff.mp h)
  simp only [SortedMap.find?_map] at hfind ⊢
  cases hR : R.find? name with
  | none =>
    rw [hR, Option.map_none] at hfind
    rw [Option.map_eq_none_iff.mp hfind.symm, Option.map_none, Option.map_none]
  | some l =>
    rw [hR, Option.map_some] at hfind
    obtain ⟨l', hl', heq⟩ := Option.map_eq_some_iff.mp hfind.symm
    rw [hl', Option.map_some, Option.map_some, mapM_eq_some_iff.mp heq.symm]

/-- Types are not changed, so the types of what is read are registered. -/
theorem registered_of_reread? {R : TextMap (List ArtifactRecord)} (h : m.Registered types)
    (hR : reread? (m.records s) = some R) :
    ∀ e ∈ R.entries, ∀ r ∈ e.2, (types.lookup? r.typeName).isSome := by
  rintro ⟨name, l⟩ he r hr
  have hfind := congrArg (SortedMap.find? · name) (map_reread? hR)
  simp only [records, SortedMap.map_map, SortedMap.find?_map,
    SortedMap.find?_eq_some_iff.mpr he] at hfind
  obtain ⟨artifacts, hartifacts, hl⟩ := Option.map_eq_some_iff.mp hfind
  have hmem : some r ∈ (artifacts.map s.record).map ArtifactRecord.reread? := by
    rw [hl]
    exact List.mem_map_of_mem hr
  rw [List.map_map, List.mem_map] at hmem
  obtain ⟨a, ha, hread⟩ := hmem
  rw [ArtifactRecord.typeName_of_reread? hread]
  exact h _ (SortedMap.find?_eq_some_iff.mp hartifacts) a ha

/-- The map that is read has the records that the text tells; if some record cannot be read, no
artifact is made. -/
theorem ofJsonText_jsonText (h : m.Registered types) (s s₀ : Store) :
    (∀ R, reread? (m.records s) = some R →
        ∃ m' s₁, ofJsonText types (m.jsonText s) s₀ = (.ok m', s₁) ∧ m'.records s₁ = R) ∧
      (reread? (m.records s) = none →
        ofJsonText types (m.jsonText s) s₀ = (.error .json, s₀)) := by
  constructor
  · intro R hR
    have hdecides := ofRecords_decides types s₀ R.entries
    obtain ⟨l, s₁, hl⟩ := hdecides.succeeds (registered_of_reread? h hR)
    obtain ⟨hheld, -⟩ := (hdecides.sound l s₁ hl).2
    refine ⟨.ofList l, s₁, ?_, ?_⟩
    · simp only [ofJsonText, decode_jsonText, hR, hl]
    · have hentries : l.map (fun e => (e.1, e.2.map s₁.record)) = R.entries := by
        clear hl
        generalize R.entries = entries at hheld
        induction hheld with
        | nil => rfl
        | cons he _ ih => rw [List.map_cons, ih, he.1, he.2.1]
      have hkeys : l.map Prod.fst = R.entries.map Prod.fst := by
        simpa [Function.comp_def] using congrArg (List.map Prod.fst) hentries
      rw [records, SortedMap.map, SortedMap.mk.injEq, SortedMap.entries_ofList hkeys]
      exact hentries
  · intro hnone
    simp only [ofJsonText, decode_jsonText, hnone]

/-! ### Which maps come back

Everything but floats comes back, so the question is about floats only. They occur as properties,
and `HasFloat` says which ones do. -/

/-- A float is a property of an artifact of the map. -/
def HasFloat (s : Store) (m : ArtifactMap) (x : Binary64) : Prop :=
  ∃ e ∈ m.entries, ∃ a ∈ e.2, ∃ p ∈ (s.artifact a).properties.entries, p.2 = .float x

theorem forall_hasFloat {P : Binary64 → Prop} :
    (∀ x, HasFloat s m x → P x) ↔ ∀ e ∈ m.entries, ∀ a ∈ e.2,
      ∀ p ∈ (s.record a).properties.entries, ∀ x, p.2 = .float x → P x :=
  ⟨fun h e he a ha p hp x hx => h x ⟨e, he, a, ha, p, hp, hx⟩,
    fun h x ⟨e, he, a, ha, p, hp, hx⟩ => h e he a ha p hp x hx⟩

theorem forall_records {P : ArtifactRecord → Prop} :
    (∀ e ∈ (m.records s).entries, ∀ r ∈ e.2, P r) ↔
      ∀ e ∈ m.entries, ∀ a ∈ e.2, P (s.record a) := by
  simp only [records, SortedMap.map, List.forall_mem_map]

/-- All records can be read if all floats can. Nothing else that a record has can stand in the
way. -/
theorem isSome_reread?_records :
    (reread? (m.records s)).isSome ↔ ∀ x, HasFloat s m x → x.reread?.isSome := by
  simp only [reread?, SortedMap.isSome_traverse?, isSome_mapM, forall_records, forall_hasFloat,
    ArtifactRecord.isSome_reread?, Scalar.isSome_reread?]

/-- All records come back as they were if all floats do. -/
theorem reread?_records_eq_self_iff :
    reread? (m.records s) = some (m.records s) ↔ ∀ x, HasFloat s m x → x.reread? = some x := by
  simp only [reread?, SortedMap.traverse?_eq_self_iff, mapM_eq_self_iff, forall_records,
    forall_hasFloat, ArtifactRecord.reread?_eq_self_iff, Scalar.reread?_eq_self_iff]

/-- If the types of its artifacts are registered, a map that is written and read comes back with the
same names and, under each name, with as many artifacts in the same order, of the same types, with
the same locations and with the same properties, but for the values of floats. It does come back
unless a float cannot be read, and it comes back as it was exactly if all of its floats do; those
that are written with few digits do. -/
theorem survives_iff (h : m.Registered types) (s s₀ : Store) :
    (∀ m' s₁, ofJsonText types (m.jsonText s) s₀ = (.ok m', s₁) →
        (m.records s).map (fun _ => List.map ArtifactRecord.reread?) =
          (m'.records s₁).map fun _ => List.map some) ∧
      ((∃ m' s₁, ofJsonText types (m.jsonText s) s₀ = (.ok m', s₁)) ↔
        ∀ x, HasFloat s m x → x.reread?.isSome) ∧
      ((∃ m' s₁, ofJsonText types (m.jsonText s) s₀ = (.ok m', s₁) ∧
          m'.records s₁ = m.records s) ↔
        ∀ x, HasFloat s m x → x.reread? = some x) ∧
      ((∀ x, HasFloat s m x → x.IsShort) →
        ∃ m' s₁, ofJsonText types (m.jsonText s) s₀ = (.ok m', s₁) ∧
          m'.records s₁ = m.records s) := by
  obtain ⟨hread, hrefused⟩ := ofJsonText_jsonText h s s₀
  have hrecords : ∀ m' s₁, ofJsonText types (m.jsonText s) s₀ = (.ok m', s₁) →
      reread? (m.records s) = some (m'.records s₁) := by
    intro m' s₁ hok
    cases hR : reread? (m.records s) with
    | none => cases hok.symm.trans (hrefused hR)
    | some R =>
      obtain ⟨m'', s₂, hok', hR'⟩ := hread R hR
      cases hok.symm.trans hok'
      rw [hR']
  have hkept : (∀ x, HasFloat s m x → x.reread? = some x) →
      ∃ m' s₁, ofJsonText types (m.jsonText s) s₀ = (.ok m', s₁) ∧ m'.records s₁ = m.records s :=
    fun h => hread (m.records s) (reread?_records_eq_self_iff.mpr h)
  refine ⟨fun m' s₁ hok => map_reread? (hrecords m' s₁ hok), ?_, ⟨?_, hkept⟩,
    fun hshort => hkept fun x hx => (hshort x hx).reread?⟩
  · rw [← isSome_reread?_records, Option.isSome_iff_exists]
    constructor
    · rintro ⟨m', s₁, hok⟩
      exact ⟨_, hrecords m' s₁ hok⟩
    · rintro ⟨R, hR⟩
      obtain ⟨m', s₁, hok, -⟩ := hread R hR
      exact ⟨m', s₁, hok⟩
  · rintro ⟨m', s₁, hok, hsame⟩
    rw [← reread?_records_eq_self_iff, hrecords m' s₁ hok, hsame]

end ArtifactMap

/-! ### Floats with few and with many digits

One half is written as `0.5`. The second float is an integer below `2 ^ 53` and is written with `.0`
behind it; the reader takes sixteen digits and a zero for one integer, which has to be rounded. -/

namespace Gauge

def type : ArtifactType := ⟨"Gauge", by decide⟩

def types : TypeRegistry := TypeRegistry.empty.add type

def artifact : Artifact := ⟨⟨1⟩, type, none⟩

def map : ArtifactMap := .ofList [("gauge", [artifact])]

/-- A store in which the artifact has a float as its only property. -/
def store (x : Binary64) : Store :=
  { artifacts := .ofList [(⟨1⟩, ⟨some "mem:gauge", .ofList [("level", .float x)]⟩)]
    nextArtifact := 2 }

/-- One half. -/
def half : Binary64 := .ofBits 0x3fe0000000000000

/-- The float `9007199254740991.0`. With the zero behind the point its digits make up an integer
that is no float. -/
def great : Binary64 := .ofBits 0x433fffffffffffff

theorem isShort_half : half.IsShort := ⟨by decide, by decide +kernel, by decide +kernel⟩

theorem reread?_great : great.reread? = some (.ofBits 0x433ffffffffffffe) := by decide +kernel

theorem hasFloat_iff (x y : Binary64) : ArtifactMap.HasFloat (store x) map y ↔ y = x := by
  have hmap : map.entries = [("gauge", [artifact])] := rfl
  have hproperties : ((store x).artifact artifact).properties.entries = [("level", .float x)] := rfl
  simp only [ArtifactMap.HasFloat, hmap, List.mem_singleton, exists_eq_left, hproperties,
    Scalar.float.injEq]
  exact eq_comm

end Gauge

namespace ArtifactMap

/-- One half comes back. What is no number does not come back, and the great float comes back as its
neighbour. -/
theorem survives_iff_gauge :
    Gauge.map.Registered Gauge.types ∧
      (∃ m' s₁, ofJsonText Gauge.types (Gauge.map.jsonText (Gauge.store Gauge.half)) {} =
          (.ok m', s₁) ∧
        m'.records s₁ = Gauge.map.records (Gauge.store Gauge.half)) ∧
      (¬ ∃ m' s₁, ofJsonText Gauge.types (Gauge.map.jsonText (Gauge.store .notANumber)) {} =
        (.ok m', s₁)) ∧
      ¬ ∃ m' s₁, ofJsonText Gauge.types (Gauge.map.jsonText (Gauge.store Gauge.great)) {} =
          (.ok m', s₁) ∧
        m'.records s₁ = Gauge.map.records (Gauge.store Gauge.great) := by
  have hregistered : Gauge.map.Registered Gauge.types := by
    simp only [Registered, Gauge.map]
    decide
  refine ⟨hregistered, ?_, fun hread => ?_, fun hsame => ?_⟩
  · refine (survives_iff hregistered _ _).2.2.2 fun x hx => ?_
    rw [(Gauge.hasFloat_iff _ x).mp hx]
    exact Gauge.isShort_half
  · have hnone : Binary64.notANumber.reread? = none := rfl
    have hsome := (survives_iff hregistered _ _).2.1.mp hread _ ((Gauge.hasFloat_iff _ _).mpr rfl)
    rw [hnone] at hsome
    exact Bool.false_ne_true hsome
  · have hkept := (survives_iff hregistered _ _).2.2.1.mp hsame _ ((Gauge.hasFloat_iff _ _).mpr rfl)
    rw [Gauge.reread?_great] at hkept
    exact absurd (Option.some.inj hkept) (by decide)

end ArtifactMap

end TypedPipeline
