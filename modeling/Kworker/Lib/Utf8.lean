import Mathlib.Data.List.Basic

/-!
# Decoding UTF-8 with replacement

What a decoder that replaces ill-formed pieces does with a text that comes in chunks, and one such
decoder, that of the Unicode standard.
-/

namespace Kworker.Lib

/-! ## Bytes -/

/-- The UTF-8 encoding of a text. -/
def utf8 (cs : List Char) : List UInt8 := cs.flatMap String.utf8EncodeChar

def isContinuation (b : UInt8) : Bool := 0x80 ≤ b.toNat && b.toNat ≤ 0xBF

/-- The bytes begin inside a character. -/
def startsInside (bs : List UInt8) : Bool := bs.head?.any isContinuation

/-- The number of bytes that begin a character. -/
def leads (bs : List UInt8) : Nat := bs.countP (!isContinuation ·)

theorem utf8_cons (c : Char) (cs : List Char) : utf8 (c :: cs) = String.utf8EncodeChar c ++ utf8 cs := rfl

theorem leads_nil : leads [] = 0 := rfl

theorem leads_cons_lead {b : UInt8} {bs : List UInt8} (h : isContinuation b = false) :
    leads (b :: bs) = leads bs + 1 := by simp [leads, h]

theorem leads_cons_tail {b : UInt8} {bs : List UInt8} (h : isContinuation b = true) :
    leads (b :: bs) = leads bs := by simp [leads, h]

theorem leads_append (as bs : List UInt8) : leads (as ++ bs) = leads as + leads bs := List.countP_append

theorem isContinuation_ofNat {n : Nat} (h : n < 256) :
    isContinuation (UInt8.ofNat n) = decide (0x80 ≤ n ∧ n ≤ 0xBF) := by
  simp [isContinuation, UInt8.toNat_ofNat', Nat.mod_eq_of_lt h]

/-- The four lengths of an encoding, with the bits that each byte carries. -/
inductive EncodesAs (n : Nat) : List UInt8 → Prop
  | one : n < 0x80 → EncodesAs n [UInt8.ofNat n]
  | two {a b : Nat} : n = a * 64 + b → 2 ≤ a → a < 32 → b < 64 →
      EncodesAs n [UInt8.ofNat (a + 0xc0), UInt8.ofNat (b + 0x80)]
  | three {a b c : Nat} : n = (a * 64 + b) * 64 + c → a < 16 → b < 64 → c < 64 →
      (a = 0 → 32 ≤ b) → (a = 13 → b < 32) →
      EncodesAs n [UInt8.ofNat (a + 0xe0), UInt8.ofNat (b + 0x80), UInt8.ofNat (c + 0x80)]
  | four {a b c d : Nat} : n = ((a * 64 + b) * 64 + c) * 64 + d → a ≤ 4 → b < 64 → c < 64 → d < 64 →
      (a = 0 → 16 ≤ b) → (a = 4 → b < 16) →
      EncodesAs n [UInt8.ofNat (a + 0xf0), UInt8.ofNat (b + 0x80), UInt8.ofNat (c + 0x80),
        UInt8.ofNat (d + 0x80)]

theorem encodesAs (c : Char) : EncodesAs c.toNat (String.utf8EncodeChar c) := by
  have hvalid : c.val.toNat < 0xd800 ∨ 0xdfff < c.val.toNat ∧ c.val.toNat < 0x110000 := c.valid
  unfold String.utf8EncodeChar Char.toNat
  simp only
  generalize c.val.toNat = n at hvalid
  split
  · exact .one (by omega)
  · split
    · exact .two (by omega) (by omega) (by omega) (by omega)
    · split
      · exact .three (by omega) (by omega) (by omega) (by omega) (by omega) (by omega)
      · exact .four (by omega) (by omega) (by omega) (by omega) (by omega) (by omega) (by omega)

theorem isContinuation_tail {b : Nat} (h : b < 64) : isContinuation (UInt8.ofNat (b + 0x80)) = true := by
  rw [isContinuation_ofNat (by omega), decide_eq_true_eq]
  omega

theorem not_isContinuation {n : Nat} (h : n < 0x80 ∨ 0xc0 ≤ n ∧ n < 256) :
    isContinuation (UInt8.ofNat n) = false := by
  rw [isContinuation_ofNat (by omega), decide_eq_false_iff_not]
  omega

theorem EncodesAs.leads {n : Nat} {bs : List UInt8} (h : EncodesAs n bs) : leads bs = 1 := by
  cases h with
  | one hn => rw [leads_cons_lead (not_isContinuation (Or.inl hn)), leads_nil]
  | two _ _ ha hb =>
      rw [leads_cons_lead (not_isContinuation (by omega)), leads_cons_tail (isContinuation_tail hb), leads_nil]
  | three _ ha hb hc =>
      rw [leads_cons_lead (not_isContinuation (by omega)), leads_cons_tail (isContinuation_tail hb),
        leads_cons_tail (isContinuation_tail hc), leads_nil]
  | four _ ha hb hc hd =>
      rw [leads_cons_lead (not_isContinuation (by omega)), leads_cons_tail (isContinuation_tail hb),
        leads_cons_tail (isContinuation_tail hc), leads_cons_tail (isContinuation_tail hd), leads_nil]

theorem leads_utf8 (cs : List Char) : leads (utf8 cs) = cs.length := by
  induction cs with
  | nil => rfl
  | cons c cs ih => rw [utf8_cons, leads_append, (encodesAs c).leads, ih, List.length_cons, Nat.add_comm]

/-! ## Decoders -/

/-- A decoder that replaces what is ill-formed: it decodes what is well-formed, begins afresh at a byte
that begins a character, and leaves no piece out. -/
structure Utf8Decoder where
  decode : List UInt8 → List Char
  decode_utf8 : ∀ cs, decode (utf8 cs) = cs
  decode_append : ∀ as b bs, isContinuation b = false → decode (as ++ b :: bs) = decode as ++ decode (b :: bs)
  decode_ne_nil : ∀ b bs, decode (b :: bs) ≠ []

namespace Utf8Decoder

variable (D : Utf8Decoder)

theorem decode_nil : D.decode [] = [] := D.decode_utf8 []

theorem decode_append_of_not_inside {as bs : List UInt8} (h : startsInside bs = false) :
    D.decode (as ++ bs) = D.decode as ++ D.decode bs := by
  cases bs with
  | nil => rw [List.append_nil, decode_nil, List.append_nil]
  | cons b bs => exact D.decode_append as b bs h

theorem leads_lt_length_decode (as bs : List UInt8) (h : as ≠ []) :
    leads bs < (D.decode (as ++ bs)).length := by
  induction bs generalizing as with
  | nil =>
      cases as with
      | nil => exact absurd rfl h
      | cons a as =>
          rw [List.append_nil]
          exact List.length_pos_iff.mpr (D.decode_ne_nil a as)
  | cons b bs ih =>
      cases hb : isContinuation b with
      | true =>
          have hlt := ih (as ++ [b]) (by simp)
          rw [List.append_assoc] at hlt
          rw [leads_cons_tail hb]
          exact hlt
      | false =>
          have hfirst := ih [b] (by simp)
          have has : 0 < (D.decode as).length := by
            cases as with
            | nil => exact absurd rfl h
            | cons a as => exact List.length_pos_iff.mpr (D.decode_ne_nil a as)
          rw [List.singleton_append] at hfirst
          rw [D.decode_append as b bs hb, List.length_append, leads_cons_lead hb]
          omega

theorem leads_le_length_decode (bs : List UInt8) :
    leads bs + (startsInside bs).toNat ≤ (D.decode bs).length := by
  cases bs with
  | nil => simp [leads, startsInside]
  | cons b bs =>
      have hlt := D.leads_lt_length_decode [b] bs (by simp)
      rw [List.singleton_append] at hlt
      cases hb : isContinuation b <;> simp [leads, startsInside, hb] at hlt ⊢ <;> omega

/-! ## Texts in chunks -/

theorem decode_flatten {chunks : List (List UInt8)} (h : ∀ bs ∈ chunks, bs ≠ [] ∧ startsInside bs = false) :
    chunks.flatMap D.decode = D.decode chunks.flatten := by
  induction chunks with
  | nil => exact D.decode_nil.symm
  | cons bs chunks ih =>
      have hrest : startsInside chunks.flatten = false := by
        cases chunks with
        | nil => rfl
        | cons bs' chunks =>
            obtain ⟨hne, hstart⟩ := h bs' (by simp)
            cases bs' with
            | nil => exact absurd rfl hne
            | cons b bs' => exact hstart
      rw [List.flatMap_cons, List.flatten_cons, D.decode_append_of_not_inside hrest,
        ih fun bs' hbs' => h bs' (List.mem_cons_of_mem bs hbs')]

theorem length_flatMap_decode (chunks : List (List UInt8)) :
    leads chunks.flatten + chunks.countP startsInside ≤ (chunks.flatMap D.decode).length := by
  induction chunks with
  | nil => simp [leads]
  | cons bs chunks ih =>
      have hbs := D.leads_le_length_decode bs
      rw [List.flatten_cons, leads_append, List.flatMap_cons, List.length_append, List.countP_cons]
      cases hstart : startsInside bs <;> simp only [hstart, Bool.toNat_true, Bool.toNat_false,
        Bool.false_eq_true, if_true, if_false] at hbs ⊢ <;> omega

/-- Decoding chunk by chunk gives the text exactly if no chunk begins inside a character. -/
theorem flatMap_decode_eq_iff {chunks : List (List UInt8)} {cs : List Char} (hne : ∀ bs ∈ chunks, bs ≠ [])
    (htext : chunks.flatten = utf8 cs) :
    chunks.flatMap D.decode = cs ↔ ∀ bs ∈ chunks, startsInside bs = false := by
  constructor
  · intro h bs hbs
    have hlen := D.length_flatMap_decode chunks
    rw [h, htext, leads_utf8] at hlen
    have hzero : chunks.countP startsInside = 0 := by omega
    exact Bool.eq_false_iff.mpr (List.countP_eq_zero.mp hzero bs hbs)
  · intro h
    rw [D.decode_flatten fun bs hbs => ⟨hne bs hbs, h bs hbs⟩, htext, D.decode_utf8]

end Utf8Decoder

/-! ## The decoder of the Unicode standard -/

namespace Replacing

/-- What is owed of a character: how many bytes, the bits so far, and the range of the next byte. -/
structure Pending where
  needed : Nat := 0
  bits : Nat := 0
  lower : Nat := 0x80
  upper : Nat := 0xBF
  bounds : 0x80 ≤ lower ∧ upper ≤ 0xBF := by decide

def replacement : Char := Char.ofNat 0xFFFD

/-- A byte between characters. -/
def start (b : Nat) : List Char × Pending :=
  if b < 0x80 then ([Char.ofNat b], {})
  else if 0xC2 ≤ b ∧ b < 0xE0 then ([], { needed := 1, bits := b - 0xC0 })
  else if b = 0xE0 then ([], { needed := 2, bits := 0, lower := 0xA0 })
  else if b = 0xED then ([], { needed := 2, bits := 0xD, upper := 0x9F })
  else if 0xE0 ≤ b ∧ b < 0xF0 then ([], { needed := 2, bits := b - 0xE0 })
  else if b = 0xF0 then ([], { needed := 3, bits := 0, lower := 0x90 })
  else if b = 0xF4 then ([], { needed := 3, bits := 4, upper := 0x8F })
  else if 0xF0 ≤ b ∧ b < 0xF4 then ([], { needed := 3, bits := b - 0xF0 })
  else ([replacement], {})

def step (p : Pending) (b : Nat) : List Char × Pending :=
  if p.needed = 0 then start b
  else if p.lower ≤ b ∧ b ≤ p.upper then
    let bits := p.bits * 64 + (b - 0x80)
    if p.needed = 1 then ([Char.ofNat bits], {}) else ([], { needed := p.needed - 1, bits })
  else (replacement :: (start b).1, (start b).2)

def decodeFrom (p : Pending) : List UInt8 → List Char
  | [] => if p.needed = 0 then [] else [replacement]
  | b :: bs => (step p b.toNat).1 ++ decodeFrom (step p b.toNat).2 bs

theorem decodeFrom_cons (p : Pending) (b : UInt8) (bs : List UInt8) :
    decodeFrom p (b :: bs) = (step p b.toNat).1 ++ decodeFrom (step p b.toNat).2 bs := rfl

theorem start_pending (b : Nat) : (start b).1 = [] → (start b).2.needed ≠ 0 := by
  unfold start
  split_ifs <;> simp

theorem step_pending (p : Pending) (b : Nat) : (step p b).1 = [] → (step p b).2.needed ≠ 0 := by
  unfold step
  split_ifs with h0 _ h1
  · exact start_pending b
  · simp
  · intro _
    simp only
    omega
  · simp

theorem decodeFrom_ne_nil {p : Pending} (h : p.needed ≠ 0) (bs : List UInt8) : decodeFrom p bs ≠ [] := by
  induction bs generalizing p with
  | nil => simp [decodeFrom, h]
  | cons b bs ih =>
      rw [decodeFrom_cons]
      intro hnil
      obtain ⟨hout, hrest⟩ := List.append_eq_nil_iff.mp hnil
      exact ih (step_pending p b.toNat hout) hrest

/-- At a byte that begins a character the decoder gives up what is owed. -/
theorem decodeFrom_lead (p : Pending) {b : UInt8} (hb : isContinuation b = false) (bs : List UInt8) :
    decodeFrom p (b :: bs) = decodeFrom p [] ++ decodeFrom {} (b :: bs) := by
  have hout : ¬ (p.lower ≤ b.toNat ∧ b.toNat ≤ p.upper) := by
    have hbounds := p.bounds
    simp only [isContinuation, Bool.and_eq_false_iff, decide_eq_false_iff_not] at hb
    omega
  by_cases h0 : p.needed = 0
  · simp [decodeFrom, step, h0]
  · simp [decodeFrom, step, h0, hout]

theorem decodeFrom_append (p : Pending) (as : List UInt8) {b : UInt8} (hb : isContinuation b = false)
    (bs : List UInt8) : decodeFrom p (as ++ b :: bs) = decodeFrom p as ++ decodeFrom {} (b :: bs) := by
  induction as generalizing p with
  | nil => exact decodeFrom_lead p hb bs
  | cons a as ih => rw [List.cons_append, decodeFrom_cons, ih, decodeFrom_cons p a as, List.append_assoc]

/-! ### What it makes of an encoding -/

theorem decodeFrom_ofNat (p : Pending) {n : Nat} (h : n < 256) (bs : List UInt8) :
    decodeFrom p (UInt8.ofNat n :: bs) = (step p n).1 ++ decodeFrom (step p n).2 bs := by
  rw [decodeFrom_cons, UInt8.toNat_ofNat', Nat.mod_eq_of_lt h]

theorem decodeFrom_tail {p : Pending} {b : Nat} (hneeded : 1 < p.needed) (hb : b < 64)
    (hlower : p.lower ≤ b + 0x80) (hupper : b + 0x80 ≤ p.upper) (bs : List UInt8) :
    decodeFrom p (UInt8.ofNat (b + 0x80) :: bs) =
      decodeFrom { needed := p.needed - 1, bits := p.bits * 64 + b } bs := by
  have h0 : p.needed ≠ 0 := by omega
  have h1 : p.needed ≠ 1 := by omega
  rw [decodeFrom_ofNat p (by omega)]
  simp [step, h0, h1, hlower, hupper]

theorem decodeFrom_last {p : Pending} {b : Nat} (hneeded : p.needed = 1) (hb : b < 64)
    (hlower : p.lower ≤ b + 0x80) (hupper : b + 0x80 ≤ p.upper) (bs : List UInt8) :
    decodeFrom p (UInt8.ofNat (b + 0x80) :: bs) = Char.ofNat (p.bits * 64 + b) :: decodeFrom {} bs := by
  rw [decodeFrom_ofNat p (by omega)]
  simp [step, hneeded, hlower, hupper]

theorem decodeFrom_start {n : Nat} {p : Pending} (hn : n < 256) (hstart : start n = ([], p))
    (bs : List UInt8) : decodeFrom {} (UInt8.ofNat n :: bs) = decodeFrom p bs := by
  rw [decodeFrom_ofNat _ hn]
  simp [step, hstart]

theorem start_two {a : Nat} (h2 : 2 ≤ a) (h : a < 32) :
    ∃ p, start (a + 0xc0) = ([], p) ∧ p.needed = 1 ∧ p.bits = a ∧ p.lower = 0x80 ∧ p.upper = 0xBF := by
  refine ⟨{ needed := 1, bits := a + 0xc0 - 0xc0 }, ?_, rfl, Nat.add_sub_cancel a 0xc0, rfl, rfl⟩
  rw [start, if_neg (by omega), if_pos (by omega)]

theorem start_three {a : Nat} (h : a < 16) :
    ∃ p, start (a + 0xe0) = ([], p) ∧ p.needed = 2 ∧ p.bits = a ∧
      p.lower = (if a = 0 then 0xA0 else 0x80) ∧ p.upper = if a = 13 then 0x9F else 0xBF := by
  by_cases h0 : a = 0
  · rw [h0]
    exact ⟨_, rfl, rfl, rfl, rfl, rfl⟩
  · by_cases h13 : a = 13
    · rw [h13]
      exact ⟨_, rfl, rfl, rfl, rfl, rfl⟩
    · refine ⟨{ needed := 2, bits := a + 0xe0 - 0xe0 }, ?_, rfl, Nat.add_sub_cancel a 0xe0, ?_, ?_⟩
      · rw [start, if_neg (by omega), if_neg (by omega), if_neg (by omega), if_neg (by omega),
          if_pos (by omega)]
      · rw [if_neg h0]
      · rw [if_neg h13]

theorem start_four {a : Nat} (h : a ≤ 4) :
    ∃ p, start (a + 0xf0) = ([], p) ∧ p.needed = 3 ∧ p.bits = a ∧
      p.lower = (if a = 0 then 0x90 else 0x80) ∧ p.upper = if a = 4 then 0x8F else 0xBF := by
  rcases (by omega : a = 0 ∨ a = 1 ∨ a = 2 ∨ a = 3 ∨ a = 4) with rfl | rfl | rfl | rfl | rfl <;>
    exact ⟨_, rfl, rfl, rfl, rfl, rfl⟩

theorem decodeFrom_encodesAs {n : Nat} {cs : List UInt8} (h : EncodesAs n cs) (bs : List UInt8) :
    decodeFrom {} (cs ++ bs) = Char.ofNat n :: decodeFrom {} bs := by
  cases h with
  | one hn =>
      rw [List.singleton_append, decodeFrom_ofNat _ (by omega)]
      simp [step, start, hn]
  | two hn h2 ha hb =>
      obtain ⟨p, hstart, hneeded, hbits, hlower, hupper⟩ := start_two h2 ha
      rw [List.cons_append, List.singleton_append, decodeFrom_start (by omega) hstart,
        decodeFrom_last hneeded hb (by omega) (by omega), hbits, hn]
  | three hn ha hb hc h0 h13 =>
      obtain ⟨p, hstart, hneeded, hbits, hlower, hupper⟩ := start_three ha
      rw [List.cons_append, List.cons_append, List.singleton_append, decodeFrom_start (by omega) hstart,
        decodeFrom_tail (by omega) hb (by split at hlower <;> omega) (by split at hupper <;> omega),
        decodeFrom_last (by simp [hneeded]) hc (by simp) (by simp; omega), hbits, hn]
  | four hn ha hb hc hd h0 h4 =>
      obtain ⟨p, hstart, hneeded, hbits, hlower, hupper⟩ := start_four ha
      rw [List.cons_append, List.cons_append, List.cons_append, List.singleton_append,
        decodeFrom_start (by omega) hstart,
        decodeFrom_tail (by omega) hb (by split at hlower <;> omega) (by split at hupper <;> omega),
        decodeFrom_tail (by simp [hneeded]) hc (by simp) (by simp; omega),
        decodeFrom_last (by simp [hneeded]) hd (by simp) (by simp; omega), hbits, hn]

theorem decodeFrom_utf8 (cs : List Char) : decodeFrom {} (utf8 cs) = cs := by
  induction cs with
  | nil => rfl
  | cons c cs ih => rw [utf8_cons, decodeFrom_encodesAs (encodesAs c), ih, Char.ofNat_toNat]

end Replacing

def Utf8Decoder.replacing : Utf8Decoder where
  decode := Replacing.decodeFrom {}
  decode_utf8 := Replacing.decodeFrom_utf8
  decode_append as b bs hb := Replacing.decodeFrom_append {} as hb bs
  decode_ne_nil b bs := by
    rw [Replacing.decodeFrom_cons]
    intro hnil
    obtain ⟨hout, hrest⟩ := List.append_eq_nil_iff.mp hnil
    exact Replacing.decodeFrom_ne_nil (Replacing.step_pending _ _ hout) _ hrest

end Kworker.Lib
