import Mathlib
import EngineFuzz.Binary.Codec

/-!
# Readers that invert writers

A reader of binary data inverts a writer if it takes off exactly what the writer puts in front.
Then what is written is read back, and what is read has one written form.

* `ByteReader.bind_eq_some_iff`, `ByteReader.pure_eq_some_iff`: readers one after another.
* `ByteReader.Inverts`: a reader inverts a writer on the values that can be written.
* `ByteReader.Inverts.map`: readers whose values are wrapped.
* `ByteReader.inverts_word`, `ByteReader.inverts_doubleWord`, `ByteReader.inverts_flag`,
  `ByteReader.inverts_text`: numbers, truth values and texts.
* `ByteReader.Inverts.optional`, `ByteReader.Inverts.list`: parts that may be missing, and lists.
-/

namespace EngineFuzz

namespace ByteReader

variable {α β : Type} {reader : ByteReader α} {writer : α → List UInt8} {P : α → Prop}
  {bytes rest : List UInt8} {a : α} {n : Nat}

/-! ### Readers one after another -/

lemma bind_eq_some_iff {f : α → ByteReader β} {b : β} :
    (reader >>= f) bytes = some (b, rest) ↔
      ∃ a mid, reader bytes = some (a, mid) ∧ f a mid = some (b, rest) := by
  change (reader bytes).bind (fun p => f p.1 p.2) = some (b, rest) ↔ _
  rw [Option.bind_eq_some_iff, Prod.exists]

lemma pure_eq_some_iff {b : α} : (pure a : ByteReader α) bytes = some (b, rest) ↔
    a = b ∧ bytes = rest := by
  change some (a, bytes) = some (b, rest) ↔ _
  rw [Option.some.injEq, Prod.mk.injEq]

lemma failure_ne_some : (failure : ByteReader α) bytes ≠ some (a, rest) := nofun

/-- The reader takes exactly what the writer puts in front of some bytes, for each value with the
property. -/
def Inverts (reader : ByteReader α) (writer : α → List UInt8) (P : α → Prop) : Prop :=
  ∀ bytes a rest, reader bytes = some (a, rest) ↔ P a ∧ bytes = writer a ++ rest

/-! ### Values of another type -/

lemma Inverts.map_eq_some_iff (h : reader.Inverts writer P) {wrap : α → β} {b : β} :
    (do return wrap (← reader) : ByteReader β) bytes = some (b, rest) ↔
      ∃ a, wrap a = b ∧ P a ∧ bytes = writer a ++ rest := by
  simp only [bind_eq_some_iff, pure_eq_some_iff, h _ _ _]
  constructor
  · rintro ⟨a, _, ⟨ha, rfl⟩, rfl, rfl⟩
    exact ⟨a, rfl, ha, rfl⟩
  · rintro ⟨a, rfl, ha, rfl⟩
    exact ⟨a, rest, ⟨ha, rfl⟩, rfl, rfl⟩

/-- A reader whose values are wrapped into another type. -/
lemma Inverts.map {wrap : α → β} {writer' : β → List UInt8} {Q : β → Prop}
    (h : reader.Inverts writer P)
    (hwrap : ∀ a, P a → Q (wrap a) ∧ writer' (wrap a) = writer a)
    (hQ : ∀ b, Q b → ∃ a, b = wrap a ∧ P a) : Inverts (do return wrap (← reader)) writer' Q := by
  intro bytes b rest
  rw [h.map_eq_some_iff]
  constructor
  · rintro ⟨a, rfl, ha, rfl⟩
    exact ⟨(hwrap a ha).1, by rw [(hwrap a ha).2]⟩
  · rintro ⟨hb, rfl⟩
    obtain ⟨a, rfl, ha⟩ := hQ b hb
    exact ⟨a, rfl, ha, by rw [(hwrap a ha).2]⟩

/-! ### Numbers -/

lemma inverts_byte : Inverts byte ([·]) fun _ => True := by
  intro bytes b rest
  cases bytes with
  | nil => simp [byte]
  | cons c bytes => simp [byte, eq_comm]

lemma toNat_toUInt8 : n.toUInt8.toNat = n % 256 := by
  rw [Nat.toUInt8_eq, UInt8.toNat_ofNat']

/-- The bytes of a natural that they can hold. -/
lemma inverts_littleEndian :
    Inverts (littleEndian n) (EngineFuzz.littleEndian n) (· < 256 ^ n) := by
  induction n with
  | zero =>
      intro bytes m rest
      rw [littleEndian, pure_eq_some_iff]
      simp [EngineFuzz.littleEndian, eq_comm]
  | succ n ih =>
      intro bytes m rest
      simp only [littleEndian, bind_eq_some_iff, pure_eq_some_iff, inverts_byte _ _ _, ih _ _ _,
        EngineFuzz.littleEndian, true_and]
      constructor
      · rintro ⟨low, _, rfl, high, _, ⟨hhigh, rfl⟩, rfl, rfl⟩
        have hlow := low.toNat_lt
        have hdiv : (low.toNat + 256 * high) / 256 = high := by omega
        have hmod : (low.toNat + 256 * high).toUInt8 = low := by
          rw [← UInt8.toNat_inj, toNat_toUInt8]
          omega
        refine ⟨by rw [pow_succ]; omega, ?_⟩
        rw [hdiv, hmod]
        rfl
      · rintro ⟨hm, rfl⟩
        refine ⟨m.toUInt8, _, rfl, m / 256, _, ⟨?_, rfl⟩, ?_, rfl⟩
        · rw [pow_succ] at hm
          omega
        · rw [toNat_toUInt8]
          omega

lemma inverts_word : Inverts word ByteWriter.word fun _ => True := by
  intro bytes w rest
  simp only [word, bind_eq_some_iff, pure_eq_some_iff, inverts_littleEndian _ _ _, true_and]
  constructor
  · rintro ⟨n, _, ⟨hn, rfl⟩, rfl, rfl⟩
    rw [ByteWriter.word, Nat.toUInt32_eq, UInt32.toNat_ofNat_of_lt' hn]
  · rintro rfl
    exact ⟨w.toNat, _, ⟨w.toNat_lt, rfl⟩, w.ofNat_toNat, rfl⟩

lemma inverts_doubleWord : Inverts doubleWord ByteWriter.doubleWord fun _ => True := by
  intro bytes w rest
  simp only [doubleWord, bind_eq_some_iff, pure_eq_some_iff, inverts_littleEndian _ _ _, true_and]
  constructor
  · rintro ⟨n, _, ⟨hn, rfl⟩, rfl, rfl⟩
    rw [ByteWriter.doubleWord, Nat.toUInt64_eq, UInt64.toNat_ofNat_of_lt' hn]
  · rintro rfl
    exact ⟨w.toNat, _, ⟨w.toNat_lt, rfl⟩, w.ofNat_toNat, rfl⟩

/-! ### Truth values and parts that may be missing -/

lemma inverts_flag : Inverts flag ByteWriter.flag fun _ => True := by
  intro bytes b rest
  simp only [flag, bind_eq_some_iff, inverts_byte _ _ _, true_and]
  constructor
  · rintro ⟨c, mid, rfl, h⟩
    split at h
    · obtain ⟨rfl, rfl⟩ := pure_eq_some_iff.mp h
      rfl
    · obtain ⟨rfl, rfl⟩ := pure_eq_some_iff.mp h
      rfl
    · exact absurd h failure_ne_some
  · rintro rfl
    cases b <;> exact ⟨_, _, rfl, rfl⟩

/-- What a part that may be missing satisfies if it is there. -/
lemma Inverts.optional (h : reader.Inverts writer P) :
    Inverts (optional reader) (ByteWriter.optional writer) fun a? => ∀ a ∈ a?, P a := by
  intro bytes a? rest
  simp only [ByteReader.optional, bind_eq_some_iff, inverts_flag _ _ _, true_and]
  constructor
  · rintro ⟨_ | _, mid, rfl, hr⟩
    · obtain ⟨rfl, rfl⟩ := pure_eq_some_iff.mp hr
      exact ⟨nofun, rfl⟩
    · obtain ⟨a, _, ha, hr⟩ := bind_eq_some_iff.mp hr
      obtain ⟨rfl, rfl⟩ := pure_eq_some_iff.mp hr
      obtain ⟨hp, rfl⟩ := (h _ _ _).mp ha
      exact ⟨fun _ h => Option.some.inj h ▸ hp, (List.append_assoc ..).symm⟩
  · rintro ⟨hp, rfl⟩
    cases a? with
    | none => exact ⟨false, _, rfl, rfl⟩
    | some a =>
        refine ⟨true, writer a ++ rest, List.append_assoc .., ?_⟩
        exact bind_eq_some_iff.mpr ⟨a, rest, (h _ _ _).mpr ⟨hp a rfl, rfl⟩, rfl⟩

/-! ### Lists -/

lemma Inverts.replicate (h : reader.Inverts writer P) :
    Inverts (replicate reader n) (·.flatMap writer) fun as => as.length = n ∧ ∀ a ∈ as, P a := by
  induction n with
  | zero =>
      intro bytes as rest
      rw [ByteReader.replicate, pure_eq_some_iff]
      constructor
      · rintro ⟨rfl, rfl⟩
        exact ⟨⟨rfl, List.forall_mem_nil _⟩, rfl⟩
      · rintro ⟨⟨hl, -⟩, rfl⟩
        obtain rfl := List.length_eq_zero_iff.mp hl
        exact ⟨rfl, rfl⟩
  | succ n ih =>
      intro bytes as rest
      simp only [ByteReader.replicate, bind_eq_some_iff, pure_eq_some_iff, h _ _ _, ih _ _ _]
      constructor
      · rintro ⟨a, _, ⟨ha, rfl⟩, as, _, ⟨⟨hl, has⟩, rfl⟩, rfl, rfl⟩
        refine ⟨⟨by rw [List.length_cons, hl], List.forall_mem_cons.mpr ⟨ha, has⟩⟩, ?_⟩
        rw [List.flatMap_cons, List.append_assoc]
      · rintro ⟨⟨hl, hall⟩, rfl⟩
        obtain ⟨a, as, rfl⟩ := List.exists_cons_of_length_eq_add_one hl
        obtain ⟨ha, has⟩ := List.forall_mem_cons.mp hall
        exact ⟨a, _, ⟨ha, by rw [List.flatMap_cons, List.append_assoc]⟩, as, _,
          ⟨⟨Nat.succ.inj hl, has⟩, rfl⟩, rfl, rfl⟩

/-- Lists whose length is a word of 64 bits. -/
lemma Inverts.list (h : reader.Inverts writer P) :
    Inverts (list reader) (ByteWriter.list writer) fun as =>
      as.length < 2 ^ 64 ∧ ∀ a ∈ as, P a := by
  intro bytes as rest
  simp only [ByteReader.list, bind_eq_some_iff, inverts_doubleWord _ _ _, h.replicate _ _ _,
    true_and]
  constructor
  · rintro ⟨count, _, rfl, ⟨hl, has⟩, rfl⟩
    refine ⟨⟨hl ▸ count.toNat_lt, has⟩, ?_⟩
    rw [ByteWriter.list, hl, Nat.toUInt64_eq, UInt64.ofNat_toNat, List.append_assoc]
  · rintro ⟨⟨hl, has⟩, rfl⟩
    refine ⟨as.length.toUInt64, as.flatMap writer ++ rest, ?_, ⟨?_, has⟩, rfl⟩
    · rw [ByteWriter.list, List.append_assoc]
    · rw [Nat.toUInt64_eq, UInt64.toNat_ofNat_of_lt' hl]

/-! ### Texts -/

lemma toList_loop (bytes : ByteArray) (i : Nat) (acc : List UInt8) :
    ByteArray.toList.loop bytes i acc = acc.reverse ++ bytes.data.toList.drop i := by
  induction i, acc using ByteArray.toList.loop.induct bytes with
  | case1 i acc hlt ih =>
      have hget : bytes.get! i = bytes.data.toList[i] := getElem!_pos bytes.data i hlt
      rw [ByteArray.toList.loop, if_pos hlt, ih, List.drop_eq_getElem_cons hlt, hget,
        List.reverse_cons, List.append_assoc, List.singleton_append]
  | case2 i acc hge =>
      rw [ByteArray.toList.loop, if_neg hge, List.drop_of_length_le (Nat.le_of_not_lt hge),
        List.append_nil]

/-- The bytes of an array, one after another. -/
lemma toList_eq (bytes : ByteArray) : bytes.toList = bytes.data.toList := toList_loop bytes 0 []

/-- The text of some bytes is the one with these bytes in UTF-8. -/
lemma fromUTF8?_eq_some_iff {cs : List UInt8} {s : String} :
    String.fromUTF8? ⟨cs.toArray⟩ = some s ↔ cs = s.toUTF8.toList := by
  rw [toList_eq, String.fromUTF8?]
  constructor
  · intro h
    split at h
    · rw [← Option.some.inj h]
      rfl
    · exact nomatch h
  · rintro rfl
    exact dif_pos s.isValidUTF8

/-- Texts whose length in bytes is a word of 64 bits. -/
lemma inverts_text : Inverts text ByteWriter.text fun s => s.utf8ByteSize < 2 ^ 64 := by
  intro bytes s rest
  have hsize : s.toUTF8.toList.length = s.utf8ByteSize := by
    rw [toList_eq]
    rfl
  simp only [text, bind_eq_some_iff, inverts_byte.list _ _ _]
  constructor
  · rintro ⟨cs, mid, ⟨⟨hl, -⟩, rfl⟩, h⟩
    cases hs : String.fromUTF8? ⟨cs.toArray⟩ with
    | none =>
        rw [hs] at h
        exact absurd h failure_ne_some
    | some s' =>
        rw [hs] at h
        obtain ⟨rfl, rfl⟩ := pure_eq_some_iff.mp h
        rw [fromUTF8?_eq_some_iff.mp hs] at hl ⊢
        exact ⟨hsize ▸ hl, rfl⟩
  · rintro ⟨hs, rfl⟩
    refine ⟨s.toUTF8.toList, rest, ⟨⟨hsize.symm ▸ hs, fun _ _ => trivial⟩, rfl⟩, ?_⟩
    rw [fromUTF8?_eq_some_iff.mpr rfl]
    rfl

end ByteReader

end EngineFuzz
