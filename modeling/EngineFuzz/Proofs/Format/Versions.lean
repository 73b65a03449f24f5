import Mathlib
import EngineFuzz.Proofs.Format.Binary
import EngineFuzz.Proofs.Format.Json
import EngineFuzz.Proofs.Json.Sizes

/-!
# Versions of stored programs

The two formats treat the version of a program differently.  A JSON text is read whatever version
it states, while the binary form is read only if the version is the current one.  So a program that
is read from a JSON text comes back from its binary form exactly if it has the current version.
That nothing else can go wrong rests on the sizes of values: what is read from a text is too small
to overflow the words that count the members of lists.

* `FieldKind.holds_of_read?`, `FieldKind.countable_of_read?`: fields that are read.
* `Program.countable_of_parseJson?`: programs that are read.
* `Program.restored_iff`: the main statement.
-/

namespace EngineFuzz

variable {n : Nat} {v : Json}

/-! ### Fields -/

/-- A list in a field that must be there has no more members than the text has bytes. -/
lemma length_le_of_requiredField? {α : Type} {reader : Json → Option α} {v? : Option Json}
    {as : List α} (hv : ∀ v ∈ v?, v.Fits n)
    (h : requiredField? (·.toList? reader) v? = some as) : as.length ≤ n := by
  obtain ⟨v, hsome, hread⟩ := Option.bind_eq_some_iff.mp h
  exact (Json.bounds_of_toList? (hv v hsome) hread).1

lemma FunctionSignature.bounds_of_ofJson? {s : FunctionSignature} (hv : v.Fits n)
    (h : ofJson? v = some s) : s.params.length ≤ n ∧ s.results.length ≤ n := by
  obtain ⟨values, hvalues, h⟩ := Option.bind_eq_some_iff.mp h
  have hfits := Json.fits_of_record? hv hvalues
  split at h
  · obtain ⟨hparams, hresults⟩ := List.forall_mem_cons.mp hfits
    obtain ⟨params, hp, h⟩ := Option.bind_eq_some_iff.mp h
    obtain ⟨results, hr, h⟩ := Option.bind_eq_some_iff.mp h
    obtain rfl := Option.some.inj h
    exact ⟨length_le_of_requiredField? hparams hp,
      length_le_of_requiredField? (List.forall_mem_singleton.mp hresults) hr⟩
  · exact nomatch h

namespace FieldKind

variable {kind : FieldKind} {value : FieldValue} {v? : Option Json}

/-- What is read of a field that must be there is made of its value. -/
lemma exists_of_required {α : Type} {reader : Json → Option α} {wrap : α → FieldValue}
    (h : (do return wrap (← requiredField? reader v?) : Option FieldValue) = some value) :
    ∃ v a, v? = some v ∧ reader v = some a ∧ value = wrap a := by
  obtain ⟨a, ha, h⟩ := Option.bind_eq_some_iff.mp h
  obtain ⟨v, hv, hread⟩ := Option.bind_eq_some_iff.mp ha
  exact ⟨v, a, hv, hread, (Option.some.inj h).symm⟩

/-- What is read of a choice is one of the names. -/
lemma exists_of_choice {names : List String} (h : (choice names).read? v? = some value) :
    ∃ index < names.length, value = .choice index := by
  obtain ⟨v, -, h⟩ := Option.bind_eq_some_iff.mp h
  have hname {name : String}
      (h : (do return .choice (← names.findIdx? (· == name)) : Option FieldValue) = some value) :
      ∃ index < names.length, value = .choice index := by
    obtain ⟨index, hindex, h⟩ := Option.bind_eq_some_iff.mp h
    obtain ⟨hlt, -⟩ := List.findIdx?_eq_some_iff_getElem.mp hindex
    exact ⟨index, hlt, (Option.some.inj h).symm⟩
  dsimp only at h
  split at h
  · exact hname h
  · exact hname h
  · exact nomatch h

/-- A field is read as a value of its kind, if there are not too many names to choose from. -/
lemma holds_of_read? (hoptions : kind.options.length < 2 ^ 32) (h : kind.read? v? = some value) :
    kind.Holds value := by
  cases kind with
  | optionalWord =>
      obtain ⟨a, -, h⟩ := Option.bind_eq_some_iff.mp h
      obtain rfl := Option.some.inj h
      trivial
  | choice names =>
      obtain ⟨index, hlt, rfl⟩ := exists_of_choice h
      exact ⟨hlt, hlt.trans hoptions⟩
  | _ =>
      obtain ⟨v, a, -, -, rfl⟩ := exists_of_required h
      trivial

/-- What is read of a small value can be counted. -/
lemma countable_of_read? (hn : n < 2 ^ 64) (hv : ∀ v ∈ v?, v.Fits n)
    (h : kind.read? v? = some value) : value.Countable := by
  have hsize {s : String} {v : Json} (hfits : v.Fits n) (hs : v.toText? = some s) :
      s.utf8ByteSize < 2 ^ 64 := by
    cases hfits with
    | string hle =>
        cases hs
        exact hle.trans_lt hn
    | _ => exact nomatch hs
  cases kind with
  | text =>
      obtain ⟨v, s, hsome, hread, rfl⟩ := exists_of_required h
      exact hsize (hv v hsome) hread
  | texts =>
      obtain ⟨v, items, hsome, hread, rfl⟩ := exists_of_required h
      obtain ⟨hlength, hitems⟩ := Json.bounds_of_toList? (hv v hsome) hread
      refine ⟨hlength.trans_lt hn, fun s hs => ?_⟩
      obtain ⟨item, hitem, hs⟩ := hitems s hs
      exact hsize hitem hs
  | bytes =>
      obtain ⟨v, items, hsome, hread, rfl⟩ := exists_of_required h
      exact (Json.bounds_of_toList? (hv v hsome) hread).1.trans_lt hn
  | signature =>
      obtain ⟨v, s, hsome, hread, rfl⟩ := exists_of_required h
      obtain ⟨hparams, hresults⟩ := FunctionSignature.bounds_of_ofJson? (hv v hsome) hread
      exact ⟨hparams.trans_lt hn, hresults.trans_lt hn⟩
  | optionalWord =>
      obtain ⟨a, -, h⟩ := Option.bind_eq_some_iff.mp h
      obtain rfl := Option.some.inj h
      trivial
  | choice names =>
      obtain ⟨index, -, rfl⟩ := exists_of_choice h
      trivial
  | _ =>
      obtain ⟨v, a, -, -, rfl⟩ := exists_of_required h
      trivial

end FieldKind

/-! ### Operations -/

namespace Operation

variable {fields : List (String × FieldKind)} {values? : List (Option Json)}
  {values : List FieldValue} {op : Operation}

/-- No field has many names to choose from. -/
lemma length_options_lt : ∀ shape ∈ variants, ∀ field ∈ shape.fields,
    field.2.options.length < 2 ^ 32 := by
  decide

/-- The fields of a variant are read as values of their kinds that can be counted. -/
lemma holds_of_readFields? (hn : n < 2 ^ 64)
    (hoptions : ∀ field ∈ fields, field.2.options.length < 2 ^ 32)
    (hv : ∀ v? ∈ values?, ∀ v ∈ v?, v.Fits n) (h : readFields? fields values? = some values) :
    List.Forall₂ (fun field value => field.2.Holds value) fields values ∧
      ∀ value ∈ values, value.Countable := by
  induction fields generalizing values? values with
  | nil =>
      cases values? with
      | nil =>
          cases h
          exact ⟨.nil, List.forall_mem_nil _⟩
      | cons v? values? => exact nomatch h
  | cons field fields ih =>
      cases values? with
      | nil => exact nomatch h
      | cons v? values? =>
          obtain ⟨hfirst, hfields⟩ := List.forall_mem_cons.mp hoptions
          obtain ⟨hv?, hvalues?⟩ := List.forall_mem_cons.mp hv
          obtain ⟨value, hvalue, h⟩ := Option.bind_eq_some_iff.mp h
          obtain ⟨rest, hrest, h⟩ := Option.bind_eq_some_iff.mp h
          obtain rfl := Option.some.inj h
          obtain ⟨hholds, hcountable⟩ := ih hfields hvalues? hrest
          exact ⟨.cons (FieldKind.holds_of_read? hfirst hvalue) hholds,
            List.forall_mem_cons.mpr ⟨FieldKind.countable_of_read? hn hv? hvalue, hcountable⟩⟩

/-- An operation that is read from a small value can be counted. -/
lemma countable_of_ofJson? (hn : n < 2 ^ 64) (hv : v.Fits n) (h : ofJson? v = some op) :
    op.Countable := by
  obtain ⟨⟨name, content⟩, hvariant, h⟩ := Option.bind_eq_some_iff.mp h
  obtain ⟨number, -, h⟩ := Option.bind_eq_some_iff.mp h
  obtain ⟨shape, hshape, h⟩ := Option.bind_eq_some_iff.mp h
  -- The values are those of a payload, as they are of the kinds of the variant.
  have hpayload {values : List FieldValue}
      (hholds : List.Forall₂ (fun field value => field.2.Holds value) shape.fields values)
      (hcountable : ∀ value ∈ values, value.Countable)
      (hread : ofPayload? number values = some op) : op.Countable := by
    obtain ⟨op', hop, hvalues⟩ := exists_operation hshape hholds
    obtain rfl : op' = op := Option.some.inj (hop.symm.trans hread)
    rw [Countable, hvalues]
    exact hcountable
  split_ifs at h with hempty
  · rw [List.isEmpty_iff] at hempty
    exact hpayload (hempty ▸ .nil) (List.forall_mem_nil _) h
  · obtain ⟨payload, hcontent, h⟩ := Option.bind_eq_some_iff.mp h
    obtain ⟨values?, hrecord, h⟩ := Option.bind_eq_some_iff.mp h
    obtain ⟨values, hvalues, h⟩ := Option.bind_eq_some_iff.mp h
    have hfits := Json.fits_of_record? (Json.fits_of_variant? hv hvariant payload hcontent) hrecord
    obtain ⟨hholds, hcountable⟩ := holds_of_readFields? hn
      (length_options_lt shape (List.mem_of_getElem? hshape)) hfits hvalues
    exact hpayload hholds hcountable h

end Operation

/-! ### Programs -/

/-- An instruction that is read from a small value can be counted. -/
lemma Instruction.countable_of_ofJson? {i : Instruction} (hn : n < 2 ^ 64) (hv : v.Fits n)
    (h : ofJson? v = some i) : i.Countable := by
  obtain ⟨values?, hrecord, h⟩ := Option.bind_eq_some_iff.mp h
  have hfits := Json.fits_of_record? hv hrecord
  split at h
  · simp only [List.forall_mem_cons] at hfits
    obtain ⟨hoperation, hinputs, houtputs, hinner, -⟩ := hfits
    obtain ⟨operation, ho, h⟩ := Option.bind_eq_some_iff.mp h
    obtain ⟨inputs, hi, h⟩ := Option.bind_eq_some_iff.mp h
    obtain ⟨outputs, hout, h⟩ := Option.bind_eq_some_iff.mp h
    obtain ⟨inner, hin, h⟩ := Option.bind_eq_some_iff.mp h
    obtain rfl := Option.some.inj h
    obtain ⟨w, hsome, hread⟩ := Option.bind_eq_some_iff.mp ho
    exact ⟨Operation.countable_of_ofJson? hn (hoperation w hsome) hread,
      (length_le_of_requiredField? hinputs hi).trans_lt hn,
      (length_le_of_requiredField? houtputs hout).trans_lt hn,
      (length_le_of_requiredField? hinner hin).trans_lt hn⟩
  · exact nomatch h

namespace Program

variable {p : Program} {text : String}

lemma countable_of_ofJson? (hn : n < 2 ^ 64) (hv : v.Fits n) (h : ofJson? v = some p) :
    p.Countable := by
  obtain ⟨values?, hrecord, h⟩ := Option.bind_eq_some_iff.mp h
  have hfits := Json.fits_of_record? hv hrecord
  split at h
  · obtain ⟨hinstructions, -⟩ := List.forall_mem_cons.mp hfits
    obtain ⟨instructions, hi, h⟩ := Option.bind_eq_some_iff.mp h
    obtain ⟨version, -, h⟩ := Option.bind_eq_some_iff.mp h
    obtain rfl := Option.some.inj h
    obtain ⟨w, hsome, hread⟩ := Option.bind_eq_some_iff.mp hi
    obtain ⟨hlength, hmembers⟩ := Json.bounds_of_toList? (hinstructions w hsome) hread
    refine ⟨hlength.trans_lt hn, fun i hi => ?_⟩
    obtain ⟨item, hitem, hread⟩ := hmembers i hi
    exact Instruction.countable_of_ofJson? hn hitem hread
  · exact nomatch h

/-- **A program that is read from a text can be counted**, as the text can. -/
theorem countable_of_parseJson? (hsize : text.utf8ByteSize < 2 ^ 64)
    (h : parseJson? text = some p) : p.Countable := by
  obtain ⟨v, hv, h⟩ := Option.bind_eq_some_iff.mp h
  exact countable_of_ofJson? hsize (Json.fits_of_parse? hv) h

lemma parseJson_eq_ok_iff : parseJson text = .ok p ↔ parseJson? text = some p := by
  rw [parseJson]
  cases parseJson? text <;> simp

/-- The version of a program that can be counted decides whether its binary form is read. -/
lemma ofBytes_toBytes_eq (hp : p.Countable) :
    ofBytes p.toBytes =
      if p.version = formatVersion then .ok p else .error (.unsupportedVersion p.version) := by
  have hread : ByteReader.program p.toBytes = some (p, []) :=
    (ByteReader.inverts_program _ _ _).mpr ⟨hp, (List.append_nil _).symm⟩
  rw [ofBytes, readBytes?, hread]
  rfl

/-- Another version does not change how a program comes back from its JSON text. -/
lemma parseJson_jsonText_version (p : Program) (version : UInt32) :
    parseJson { p with version }.jsonText = (parseJson p.jsonText).map ({ · with version }) := by
  have hreread : parseJson? { p with version }.jsonText =
      (parseJson? p.jsonText).map ({ · with version }) := by
    rw [parseJson?_jsonText, parseJson?_jsonText, reread?, reread?, Option.map_map]
    rfl
  rw [parseJson, parseJson, hreread]
  cases parseJson? p.jsonText <;> rfl

/-- **A program that is read from JSON** comes back from its binary form exactly if it has the
current version; otherwise the binary form is refused for the version.  JSON texts are read with any
version: the text of the program is read with another one as it is with its own.  Texts that are
held in memory are as short as is asked for here. -/
theorem restored_iff (hsize : text.utf8ByteSize < 2 ^ 64) (h : parseJson text = .ok p) :
    (ofBytes p.toBytes = .ok p ↔ p.version = formatVersion) ∧
      (p.version ≠ formatVersion →
        ofBytes p.toBytes = .error (.unsupportedVersion p.version)) ∧
      ∀ version, parseJson { p with version }.jsonText =
        (parseJson p.jsonText).map ({ · with version }) := by
  have hp := countable_of_parseJson? hsize (parseJson_eq_ok_iff.mp h)
  rw [ofBytes_toBytes_eq hp]
  by_cases hversion : p.version = formatVersion
  · rw [if_pos hversion]
    exact ⟨iff_of_true rfl hversion, fun hne => absurd hversion hne, parseJson_jsonText_version p⟩
  · rw [if_neg hversion]
    exact ⟨iff_of_false nofun hversion, fun _ => rfl, parseJson_jsonText_version p⟩

/-- A program of the current version comes back. -/
theorem restored_iff_loadString :
    let text := "\x7b\"version\": 1, \"instructions\": [\x7b\"operation\": \x7b\"LoadString\": " ++
      "[\"\\u00e9\"]\x7d, \"inputs\": [], \"outputs\": [0], \"inner_outputs\": []\x7d]\x7d"
    let p : Program := ⟨[⟨.loadString "é", [], [⟨0⟩], []⟩], formatVersion⟩
    text.utf8ByteSize < 2 ^ 64 ∧ parseJson text = .ok p ∧ ofBytes p.toBytes = .ok p := by
  intro text p
  have hsize : text.utf8ByteSize < 2 ^ 64 := by decide_cbv
  have htext : parseJson text = .ok p := by decide +kernel
  exact ⟨hsize, htext, (restored_iff hsize htext).1.mpr rfl⟩

/-- A text of a later version is read, but the binary form of what it denotes is refused. -/
theorem not_restored_laterVersion :
    parseJson "\x7b\"instructions\": [], \"version\": 2\x7d" = .ok ⟨[], 2⟩ ∧
      ofBytes (⟨[], 2⟩ : Program).toBytes = .error (.unsupportedVersion 2) := by
  decide

end Program

end EngineFuzz
