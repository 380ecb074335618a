import L2Flow.Wire

/-!
# What reading does

Two descriptions of a decoding step, both kept by sequencing.

`Decodes` is for every body : the step loads only bytes of the body and never ends with
`kTruncated`, and if it ends with a result, it has protected the ranges `new` and the result
satisfies `post`. `Yields` is for a body that is laid out as it should be : from a table in
which the ranges `new` are free, the step ends with the given result and marks the given
flags.
-/

namespace L2Flow

variable {α β : Type} {body : List UInt8} {fixedBytes maximumQueueItems : ℕ}

/-! ## Any body -/

namespace Scan

/-- What holds in every state of a call : nothing outside the body was loaded, no total was
subtracted from a smaller limit, and the protected ranges are apart and after the fixed
part. -/
structure Sound (body : List UInt8) (fixedBytes maximumQueueItems : ℕ) (s : Scan) : Prop where
  protecting : s.protecting = true
  loads : ∀ r ∈ s.loads, r.stop ≤ body.length
  totals : ∀ total ∈ s.totals, total ≤ maximumQueueItems
  within : ∀ r ∈ s.ranges, fixedBytes ≤ r.start ∧ r.start < r.stop ∧ r.stop ≤ body.length
  apart : s.ranges.Pairwise Bytes.Range.Apart

variable {s : Scan}

theorem Sound.load (h : s.Sound body fixedBytes maximumQueueItems) {offset size : ℕ}
    (hle : offset + size ≤ body.length) :
    (s.load offset size).Sound body fixedBytes maximumQueueItems where
  protecting := h.protecting
  loads r hr := by
    rcases List.mem_append.1 hr with hr | hr
    · exact h.loads r hr
    · obtain rfl := List.mem_singleton.1 hr
      exact hle
  totals := h.totals
  within := h.within
  apart := h.apart

theorem Sound.mark (h : s.Sound body fixedBytes maximumQueueItems) (flags : Flags) :
    (s.mark flags).Sound body fixedBytes maximumQueueItems :=
  { h with }

theorem Sound.subtract (h : s.Sound body fixedBytes maximumQueueItems) {total : ℕ}
    (hle : total ≤ maximumQueueItems) :
    (s.subtract total).Sound body fixedBytes maximumQueueItems where
  protecting := h.protecting
  loads := h.loads
  totals t ht := by
    rcases List.mem_append.1 ht with ht | ht
    · exact h.totals t ht
    · obtain rfl := List.mem_singleton.1 ht
      exact hle
  within := h.within
  apart := h.apart

theorem Sound.protect (h : s.Sound body fixedBytes maximumQueueItems) {start size : ℕ}
    (hpos : 0 < size) (hfixed : fixedBytes ≤ start) (hle : start + size ≤ body.length)
    (hapart : ∀ r ∈ s.ranges, r.Apart ⟨start, start + size⟩) :
    (s.protect start size).Sound body fixedBytes maximumQueueItems where
  protecting := h.protecting
  loads := h.loads
  totals := h.totals
  within r hr := by
    rcases List.mem_append.1 hr with hr | hr
    · exact h.within r hr
    · obtain rfl := List.mem_singleton.1 hr
      exact ⟨hfixed, Nat.lt_add_of_pos_right hpos, hle⟩
  apart := by
    refine List.pairwise_append.2 ⟨h.apart, List.pairwise_singleton _ _, fun r hr q hq => ?_⟩
    obtain rfl := List.mem_singleton.1 hq
    exact hapart r hr

end Scan

/-- On every body : whatever the step ends with, the state is sound; an error is not
`kTruncated`; with a result, the ranges `new` have been protected, and `post` holds. -/
def Decodes (body : List UInt8) (fixedBytes maximumQueueItems : ℕ) (m : Decoder α)
    (new : List Bytes.Range) (post : α → Prop) : Prop :=
  ∀ ranges, Spec (fun s => s.Sound body fixedBytes maximumQueueItems ∧ s.ranges = ranges) m
    (fun a s => (s.Sound body fixedBytes maximumQueueItems ∧ s.ranges = ranges ++ new) ∧ post a)
    (fun e s => e ≠ .kTruncated ∧ s.Sound body fixedBytes maximumQueueItems)

namespace Decodes

variable {m : Decoder α} {new new' : List Bytes.Range} {post post' : α → Prop}

theorem pure {a : α} (h : post a) :
    Decodes body fixedBytes maximumQueueItems (pure a) [] post := by
  intro ranges
  refine Spec.pure fun s hs => ⟨⟨hs.1, ?_⟩, h⟩
  rw [List.append_nil]
  exact hs.2

theorem mono (h : Decodes body fixedBytes maximumQueueItems m new post)
    (hpost : ∀ a, post a → post' a) : Decodes body fixedBytes maximumQueueItems m new post' :=
  fun ranges => (h ranges).mono (fun _ hs => hs) (fun a _ hs => ⟨hs.1, hpost a hs.2⟩)
    (fun _ _ he => he)

theorem bind {f : α → Decoder β} {post' : β → Prop}
    (hm : Decodes body fixedBytes maximumQueueItems m new post)
    (hf : ∀ a, post a → Decodes body fixedBytes maximumQueueItems (f a) new' post') :
    Decodes body fixedBytes maximumQueueItems (m >>= f) (new ++ new') post' := by
  intro ranges
  refine (hm ranges).bind fun a s hs => ?_
  obtain ⟨hs, ha⟩ := hs
  rw [← List.append_assoc]
  exact hf a ha (ranges ++ new) s hs

/-- A step that protects nothing, and the rest. -/
theorem next {f : α → Decoder β} {post' : β → Prop}
    (hm : Decodes body fixedBytes maximumQueueItems m [] post)
    (hf : ∀ a, post a → Decodes body fixedBytes maximumQueueItems (f a) new' post') :
    Decodes body fixedBytes maximumQueueItems (m >>= f) new' post' :=
  hm.bind hf

theorem ite {condition : Prop} [Decidable condition] {m' : Decoder α}
    (hpos : condition → Decodes body fixedBytes maximumQueueItems m new post)
    (hneg : ¬condition → Decodes body fixedBytes maximumQueueItems m' new post) :
    Decodes body fixedBytes maximumQueueItems (if condition then m else m') new post := by
  split_ifs with h
  · exact hpos h
  · exact hneg h

theorem require {e : DecodeError} (he : e ≠ .kTruncated) (condition : Prop)
    [Decidable condition] :
    Decodes body fixedBytes maximumQueueItems (require e condition) [] fun _ => condition := by
  intro ranges
  refine Spec.require (fun s hs h => ⟨⟨hs.1, ?_⟩, h⟩) (fun s hs _ => ⟨he, hs.1⟩)
  rw [List.append_nil]
  exact hs.2

/-- A check that does not fail. -/
theorem check {condition : Prop} [Decidable condition] (h : condition) (e : DecodeError) :
    Decodes body fixedBytes maximumQueueItems (L2Flow.require e condition) [] fun _ => True := by
  intro ranges s hs
  rw [require_ok h]
  exact ⟨⟨hs.1, hs.2.trans (List.append_nil _).symm⟩, trivial⟩

/-- A change of the state that leaves the ranges alone. -/
theorem modify {f : Scan → Scan}
    (hf : ∀ s, s.Sound body fixedBytes maximumQueueItems →
      (f s).Sound body fixedBytes maximumQueueItems ∧ (f s).ranges = s.ranges) :
    Decodes body fixedBytes maximumQueueItems (modify f) [] fun _ => True := by
  intro ranges s hs
  obtain ⟨hsound, hranges⟩ := hf s hs.1
  refine ⟨⟨hsound, ?_⟩, trivial⟩
  rw [List.append_nil]
  exact hranges.trans hs.2

theorem mark (flags : Flags) :
    Decodes body fixedBytes maximumQueueItems (mark flags) [] fun _ => True :=
  modify fun _ hs => ⟨hs.mark flags, rfl⟩

theorem load {width offset : ℕ} (h : offset + width ≤ body.length) (failure : DecodeError) :
    Decodes body fixedBytes maximumQueueItems (load body width offset failure) []
      fun n => n = wire body width offset := by
  rw [L2Flow.load, loadUnsigned_of_le h]
  exact (modify fun _ hs => ⟨hs.load h, rfl⟩).next fun _ _ => pure rfl

theorem loadI32 {offset : ℕ} (h : offset + 4 ≤ body.length) (failure : DecodeError) :
    Decodes body fixedBytes maximumQueueItems (loadI32 body offset failure) []
      fun n => n = LittleEndian.signed 32 (wire body 4 offset) :=
  (load h failure).next fun _ hn => pure (by rw [hn])

theorem loadI64 {offset : ℕ} (h : offset + 8 ≤ body.length) (failure : DecodeError) :
    Decodes body fixedBytes maximumQueueItems (loadI64 body offset failure) []
      fun n => n = LittleEndian.signed 64 (wire body 8 offset) :=
  (load h failure).next fun _ hn => pure (by rw [hn])

/-- A range that is not empty is protected; nothing is protected for an empty one. -/
theorem protectDynamicRange {start size : ℕ} (hpos : 0 < size) (hfixed : fixedBytes ≤ start)
    (hle : start + size ≤ body.length) :
    Decodes body fixedBytes maximumQueueItems (protectDynamicRange start size)
      [⟨start, start + size⟩] fun _ => True := by
  rintro ranges s ⟨hs, rfl⟩
  have hcond : ¬(s.protecting = false ∨ size = 0) := by simp [hs.protecting, hpos.ne']
  rw [L2Flow.protectDynamicRange, bind_ok (show (get : Decoder Scan) s = .ok s s from rfl),
    if_neg hcond]
  by_cases hoffset : start ≤ sizeMax - size
  · rw [bind_ok (require_ok hoffset s)]
    by_cases hapart : ∀ r ∈ s.ranges, r.Apart ⟨start, start + size⟩
    · rw [bind_ok (require_ok hapart s)]
      by_cases hroom : s.ranges.length < s.capacity ∨ s.grows (s.ranges.length + 1) = true
      · rw [bind_ok (require_ok hroom s)]
        exact ⟨⟨hs.protect hpos hfixed hle hapart, rfl⟩, trivial⟩
      · rw [bind_error (require_error hroom s)]
        exact ⟨by decide, hs⟩
    · rw [bind_error (require_error hapart s)]
      exact ⟨by decide, hs⟩
  · rw [bind_error (require_error hoffset s)]
    exact ⟨by decide, hs⟩

end Decodes

/-! ## Texts and lists -/

/-- The range of `size` bytes from `start` on, if it is not empty. -/
def named (start size : ℕ) : List Bytes.Range :=
  if size = 0 then [] else [⟨start, start + size⟩]

/-- The size that the descriptor of a text names. -/
def textSize (body : List UInt8) (descriptorOffset : ℕ) : ℕ :=
  wire body 2 descriptorOffset

/-- The offset of the text that a descriptor names. -/
def textStart (body : List UInt8) (descriptorOffset : ℕ) : ℕ :=
  descriptorOffset + wire body 4 (descriptorOffset + 2)

/-- The bytes of the text that a descriptor names. -/
def textBytes (body : List UInt8) (descriptorOffset : ℕ) : List UInt8 :=
  Bytes.slice body (textStart body descriptorOffset) (textSize body descriptorOffset)

/-- The number of items of the list that a descriptor names. -/
def listCount (body : List UInt8) (descriptorOffset : ℕ) : ℕ :=
  wire body 4 descriptorOffset

/-- The offset of the list that a descriptor names. -/
def listStart (body : List UInt8) (descriptorOffset : ℕ) : ℕ :=
  descriptorOffset + wire body 4 (descriptorOffset + 4)

/-- What is checked of a text, apart from its place. -/
structure TextAccepted (maximumBytes : ℕ) (requireNonempty : Bool) (text : List UInt8) :
    Prop where
  length_le : text.length ≤ maximumBytes
  printable : isPrintableAscii text = true
  nonempty : requireNonempty = true → text ≠ []

namespace Decodes

theorem readText {descriptorOffset maximumBytes : ℕ} {requireNonempty : Bool}
    (hfixed : fixedBytes ≤ body.length) (hd : descriptorOffset + 6 ≤ body.length) :
    Decodes body fixedBytes maximumQueueItems
      (readText body descriptorOffset fixedBytes maximumBytes requireNonempty)
      (named (textStart body descriptorOffset) (textSize body descriptorOffset))
      fun text => text = textBytes body descriptorOffset ∧
        TextAccepted maximumBytes requireNonempty text := by
  rw [L2Flow.readText]
  refine (check hfixed _).next fun _ _ => ?_
  refine (load (by omega) _).next fun size hsize => ?_
  refine (load (by omega) _).next fun relativeOffset hrelative => ?_
  refine (require (by decide) _).next fun _ hmaximum => ?_
  subst hsize hrelative
  refine ite (fun hzero => ?_) fun hpos => ?_
  · have hnamed : named (textStart body descriptorOffset) (textSize body descriptorOffset) = [] :=
      if_pos hzero
    rw [hnamed]
    refine (require (by decide) _).next fun _ _ => ?_
    refine (require (by decide) _).next fun _ hempty => pure ⟨?_, ?_⟩
    · rw [textBytes, textSize, hzero, Bytes.slice, List.take_zero]
    · exact ⟨Nat.zero_le _, rfl, fun h => absurd h (by simp [hempty])⟩
  · have hnamed : named (textStart body descriptorOffset) (textSize body descriptorOffset) =
        [⟨textStart body descriptorOffset,
          textStart body descriptorOffset + textSize body descriptorOffset⟩] := if_neg hpos
    rw [hnamed]
    refine (require (by decide) _).next fun _ hoffset => ?_
    refine (require (by decide) _).next fun _ hplace => ?_
    have hle : textStart body descriptorOffset + textSize body descriptorOffset ≤ body.length := by
      rw [textStart, textSize]
      omega
    refine (modify fun _ hs => ⟨hs.load hle, rfl⟩).next fun _ _ => ?_
    refine (require (by decide) _).next fun _ hprintable => ?_
    refine (protectDynamicRange (Nat.pos_of_ne_zero hpos) hplace.1 hle).bind fun _ _ => pure ?_
    have hlen := Bytes.length_slice hle
    refine ⟨rfl, hlen.trans_le hmaximum, hprintable, fun _ hnil => hpos ?_⟩
    exact hlen.symm.trans (congrArg List.length hnil)

end Decodes

/-- What a list's view says of the list, and of its place if it is not empty. -/
structure ListAccepted (body : List UInt8) (descriptorOffset size maximumItems : ℕ)
    (view : ListView) : Prop where
  count : view.count = listCount body descriptorOffset
  itemSize : view.itemSize = size
  count_le : view.count ≤ maximumItems
  start : view.count ≠ 0 → view.start = listStart body descriptorOffset
  within : view.start + view.count * size ≤ body.length

namespace Decodes

theorem readList {descriptorOffset itemSize maximumItems : ℕ} (hitem : 0 < itemSize)
    (hfixed : fixedBytes ≤ body.length) (hd : descriptorOffset + 8 ≤ body.length) :
    Decodes body fixedBytes maximumQueueItems
      (readList body descriptorOffset itemSize fixedBytes maximumItems)
      (named (listStart body descriptorOffset) (listCount body descriptorOffset * itemSize))
      (ListAccepted body descriptorOffset itemSize maximumItems) := by
  rw [L2Flow.readList]
  refine (check hfixed _).next fun _ _ => ?_
  refine (load (by omega) _).next fun count hcount => ?_
  refine (load (by omega) _).next fun relativeOffset hrelative => ?_
  refine (require (by decide) _).next fun _ hmaximum => ?_
  subst hcount hrelative
  refine ite (fun hzero => ?_) fun hpos => ?_
  · have hnamed : named (listStart body descriptorOffset)
        (listCount body descriptorOffset * itemSize) = [] := by
      rw [listCount, hzero, Nat.zero_mul]
      rfl
    rw [hnamed]
    refine (require (by decide) _).next fun _ _ => pure ?_
    exact ⟨hzero.symm, rfl, Nat.zero_le _, fun h => absurd rfl h, by simp⟩
  · have hbytes : 0 < listCount body descriptorOffset * itemSize :=
      Nat.mul_pos (Nat.pos_of_ne_zero hpos) hitem
    have hnamed : named (listStart body descriptorOffset)
        (listCount body descriptorOffset * itemSize) =
        [⟨listStart body descriptorOffset, listStart body descriptorOffset +
          listCount body descriptorOffset * itemSize⟩] := if_neg hbytes.ne'
    rw [hnamed]
    refine (require (by decide) _).next fun _ hoffset => ?_
    refine (require (by decide) _).next fun _ hplace => ?_
    have hle : listStart body descriptorOffset + listCount body descriptorOffset * itemSize ≤
        body.length := by
      rw [listStart, listCount]
      omega
    refine (protectDynamicRange hbytes hplace.1 hle).bind fun _ _ => pure ?_
    exact ⟨rfl, rfl, hmaximum, fun _ => rfl, hle⟩

end Decodes

end L2Flow
