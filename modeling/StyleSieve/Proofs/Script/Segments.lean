import StyleSieve.Proofs.Text.Utf8
import StyleSieve.Script.Tree

/-!
# The texts of a template around its substitutions

In a syntax tree that counts in bytes the bytes of a template are taken from the source once, and the
pieces around its substitutions are cut from these by their offsets in them, each from the end of one
substitution to the start of the next, and decoded. That comes to the same as `Tree.segments`, which
cuts the characters of the source.

* `Span.interleave_between`: what stretches in order leave of a larger one, taken in turns with the
  stretches, is what stands on the larger one.
* `Span.slice_inBytes`: the bytes on a stretch, counted in bytes, are those of its characters.
* `Tree.segmentTextsFrom_inBytes`: the loop over the children of a template, from any offset on.
* `Tree.IsTemplate.segmentTexts_eq`: so the texts are the segments, whatever the characters are.
* `Tree.segments_partition`: a template has one text more than it has substitutions, and the texts
  and the substitutions in turns are all that stands between its backticks.
-/

namespace StyleSieve.Script

open Utf8 (encodeChars)

/-! ## Stretches -/

/-- The lists of the first row and those of the second in turns, for as long as both last, and then
what is left of the first. -/
def interleave {α : Type} : List (List α) → List (List α) → List α
  | xs :: xss, ys :: yss => xs ++ ys ++ interleave xss yss
  | xss, _ => xss.flatten

namespace Span

/-- Stretches stand in order in a larger one and do not overlap. -/
def HoldsInOrder (whole : Span) : List Span → Prop
  | [] => whole.start ≤ whole.stop
  | s :: rest =>
    whole.start ≤ s.start ∧ s.start ≤ s.stop ∧ HoldsInOrder ⟨s.stop, whole.stop⟩ rest

instance decidableHoldsInOrder : (whole : Span) → (ss : List Span) → Decidable (whole.HoldsInOrder ss)
  | whole, [] => inferInstanceAs (Decidable (whole.start ≤ whole.stop))
  | whole, s :: rest =>
    have := decidableHoldsInOrder ⟨s.stop, whole.stop⟩ rest
    inferInstanceAs (Decidable (whole.start ≤ s.start ∧ s.start ≤ s.stop ∧
      HoldsInOrder ⟨s.stop, whole.stop⟩ rest))

variable {α : Type} {l : List α} {x : α} {a b c n : Nat} {whole s : Span} {ss : List Span}

theorem HoldsInOrder.start_le_stop (h : whole.HoldsInOrder ss) : whole.start ≤ whole.stop := by
  induction ss generalizing whole with
  | nil => exact h
  | cons s rest ih =>
    have hRest : s.stop ≤ whole.stop := ih h.2.2
    exact Nat.le_trans h.1 (Nat.le_trans h.2.1 hRest)

theorem HoldsInOrder.stop_le (h : whole.HoldsInOrder (s :: ss)) : s.stop ≤ whole.stop :=
  h.2.2.start_le_stop

theorem length_between (whole : Span) (ss : List Span) :
    (whole.between ss).length = ss.length + 1 := by
  induction ss generalizing whole with
  | nil => rfl
  | cons s rest ih => rw [between, List.length_cons, ih, List.length_cons]

theorem slice_append (hLow : a ≤ b) (hHigh : b ≤ c) :
    slice l ⟨a, b⟩ ++ slice l ⟨b, c⟩ = slice l ⟨a, c⟩ := by
  have hDrop : l.drop b = (l.drop a).drop (b - a) := by
    rw [List.drop_drop, Nat.add_sub_cancel' hLow]
  have hLength : c - a = (b - a) + (c - b) := by omega
  rw [slice, slice, slice, hDrop, hLength, List.take_add]

theorem slice_singleton (h : l[n]? = some x) : slice l ⟨n, n + 1⟩ = [x] := by
  obtain ⟨hBound, hGet⟩ := List.getElem?_eq_some_iff.mp h
  rw [slice, List.drop_eq_getElem_cons hBound, hGet, Nat.add_sub_cancel_left, List.take_succ_cons,
    List.take_zero]

/-- What stands on a stretch of a larger stretch, by its offsets in the larger one. -/
theorem slice_slice (hLow : whole.start ≤ a) (hHigh : b ≤ whole.stop) :
    slice (whole.slice l) ⟨a - whole.start, b - whole.start⟩ = slice l ⟨a, b⟩ := by
  have hStart : whole.start + (a - whole.start) = a := by omega
  have hLength : min (b - whole.start - (a - whole.start))
      (whole.stop - whole.start - (a - whole.start)) = b - a := by omega
  simp only [slice]
  rw [List.drop_take, List.take_take, List.drop_drop, hStart, hLength]

/-- Stretches in order and what they leave of a larger one are in turns all that stands on it. -/
theorem interleave_between (h : whole.HoldsInOrder ss) :
    interleave ((whole.between ss).map (slice l)) (ss.map (slice l)) = whole.slice l := by
  induction ss generalizing whole with
  | nil => simp [between, interleave]
  | cons s rest ih =>
    have hStart : whole.start ≤ s.stop := Nat.le_trans h.1 h.2.1
    calc interleave ((whole.between (s :: rest)).map (slice l)) ((s :: rest).map (slice l))
      _ = slice l ⟨whole.start, s.start⟩ ++ s.slice l ++ slice l ⟨s.stop, whole.stop⟩ := by
        rw [between, List.map_cons, List.map_cons, interleave, ih h.2.2]
      _ = slice l ⟨whole.start, s.stop⟩ ++ slice l ⟨s.stop, whole.stop⟩ := by
        rw [slice_append h.1 h.2.1]
      _ = whole.slice l := slice_append hStart h.stop_le

end Span

theorem encodeChars_flatten (xss : List (List Char)) :
    encodeChars xss.flatten = (xss.map encodeChars).flatten := by
  induction xss with
  | nil => rfl
  | cons xs xss ih =>
    rw [List.flatten_cons, Utf8.encodeChars_append, ih, List.map_cons, List.flatten_cons]

theorem encodeChars_interleave (xss yss : List (List Char)) :
    encodeChars (interleave xss yss) =
      interleave (xss.map encodeChars) (yss.map encodeChars) := by
  induction xss generalizing yss with
  | nil => rfl
  | cons xs xss ih =>
    cases yss with
    | nil => exact encodeChars_flatten _
    | cons ys yss =>
      simp only [interleave, List.map_cons, Utf8.encodeChars_append, ih]

/-! ## Stretches in bytes -/

/-- The number of bytes in front of a character. -/
def byteOffset (source : List Char) (n : Nat) : Nat := (encodeChars (source.take n)).length

/-- A stretch of characters, counted in bytes. -/
def Span.inBytes (source : List Char) (s : Span) : Span :=
  ⟨byteOffset source s.start, byteOffset source s.stop⟩

section Bytes

@[simp] theorem Span.inBytes_start (source : List Char) (s : Span) :
    (s.inBytes source).start = byteOffset source s.start := rfl

@[simp] theorem Span.inBytes_stop (source : List Char) (s : Span) :
    (s.inBytes source).stop = byteOffset source s.stop := rfl

variable {source : List Char} {a b n : Nat} {c : Char} {s whole : Span}

theorem byteOffset_add (source : List Char) (h : a ≤ b) :
    byteOffset source b = byteOffset source a + (encodeChars (Span.slice source ⟨a, b⟩)).length := by
  have hTake : source.take b = source.take a ++ Span.slice source ⟨a, b⟩ := by
    rw [Span.slice, ← List.take_add, Nat.add_sub_cancel' h]
  rw [byteOffset, hTake, Utf8.encodeChars_append, List.length_append, ← byteOffset]

theorem byteOffset_mono (source : List Char) (h : a ≤ b) : byteOffset source a ≤ byteOffset source b := by
  rw [byteOffset_add source h]
  exact Nat.le_add_right _ _

/-- A backtick takes one byte. -/
theorem byteOffset_backtick (h : source[n]? = some '\x60') :
    byteOffset source (n + 1) = byteOffset source n + 1 := by
  rw [byteOffset_add source (Nat.le_succ n), Span.slice_singleton h]
  rfl

/-- The bytes on a stretch, counted in bytes, are those of its characters. -/
theorem Span.slice_inBytes (h : s.start ≤ s.stop) :
    (s.inBytes source).slice (encodeChars source) = encodeChars (s.slice source) := by
  have hSplit : encodeChars source =
      encodeChars (source.take s.start) ++
        (encodeChars (s.slice source) ++
          encodeChars ((source.drop s.start).drop (s.stop - s.start))) := by
    rw [← Utf8.encodeChars_append, ← Utf8.encodeChars_append, Span.slice, List.take_append_drop,
      List.take_append_drop]
  have hLength : byteOffset source s.stop - byteOffset source s.start =
      (encodeChars (s.slice source)).length := by
    rw [byteOffset_add source h, Nat.add_sub_cancel_left]
  rw [Span.slice, Span.inBytes, hLength, hSplit, byteOffset, List.drop_left, List.take_left]

theorem Span.map_slice_inBytes {ss : List Span} (h : whole.HoldsInOrder ss) :
    ss.map (fun s => (s.inBytes source).slice (encodeChars source)) =
      ss.map fun s => encodeChars (s.slice source) := by
  induction ss generalizing whole with
  | nil => rfl
  | cons s rest ih => rw [List.map_cons, List.map_cons, slice_inBytes h.2.1, ih h.2.2]

/-- A piece of a stretch is decoded from the bytes of the stretch by its offsets in these. -/
theorem decode_slice (source : List Char) (hStart : whole.start ≤ a) (hOrder : a ≤ b)
    (hStop : b ≤ whole.stop) :
    Utf8.decode (Span.slice ((whole.inBytes source).slice (encodeChars source))
        ⟨byteOffset source a - byteOffset source whole.start,
          byteOffset source b - byteOffset source whole.start⟩) =
      .ok (String.ofList (Span.slice source ⟨a, b⟩)) := by
  have hBytes : Span.slice (encodeChars source) ⟨byteOffset source a, byteOffset source b⟩ =
      encodeChars (Span.slice source ⟨a, b⟩) :=
    Span.slice_inBytes (s := ⟨a, b⟩) hOrder
  rw [← Span.inBytes_start,
    Span.slice_slice (byteOffset_mono source hStart) (byteOffset_mono source hStop), hBytes,
    Utf8.decode_encodeChars]

end Bytes

namespace Tree

/-! ## Trees in bytes -/

mutual

/-- A tree over characters, counted in bytes. -/
def inBytes (source : List Char) : Tree → Tree
  | node k s cs => node k (s.inBytes source) (inBytesAll source cs)

/-- Trees side by side, counted in bytes. -/
def inBytesAll (source : List Char) : List Tree → List Tree
  | [] => []
  | t :: ts => t.inBytes source :: inBytesAll source ts

end

/-- The texts that the loop over the children of a template yields from an offset in its bytes on,
where `base` is the offset of these in the source. -/
def segmentTextsFrom (bytes : Bytes) (base start : Nat) : List Tree → Except Utf8.Error (List String)
  | [] => do return [← Utf8.decode (Span.slice bytes ⟨start, bytes.length - 1⟩)]
  | c :: cs =>
    if c.kind == .substitution then do
      let text ← Utf8.decode (Span.slice bytes ⟨start, c.span.start - base⟩)
      return text :: (← segmentTextsFrom bytes base (c.span.stop - base) cs)
    else segmentTextsFrom bytes base start cs

/-- The texts of a template around its substitutions, decoded from the bytes of the source. The first
one starts behind the opening backtick. -/
def segmentTexts (source : Bytes) (t : Tree) : Except Utf8.Error (List String) :=
  segmentTextsFrom (t.span.slice source) t.span.start 1 t.children

/-- A node is a template between backticks, and the substitutions directly inside it stand in order
between these. -/
structure IsTemplate (source : List Char) (t : Tree) : Prop where
  kind : t.kind = .template
  opened : source[t.span.start]? = some '\x60'
  closed : source[t.span.stop - 1]? = some '\x60'
  ordered : t.inside.HoldsInOrder t.substitutions

/-- The stretches of the substitutions among nodes side by side. -/
def substitutionsAmong (ts : List Tree) : List Span :=
  (ts.filter fun t => t.kind == .substitution).map span

variable {source : List Char} {t : Tree} {ts : List Tree}

theorem kind_inBytes (t : Tree) : (t.inBytes source).kind = t.kind := by
  cases t
  rfl

theorem span_inBytes (t : Tree) : (t.inBytes source).span = t.span.inBytes source := by
  cases t
  rfl

theorem children_inBytes (t : Tree) : (t.inBytes source).children = inBytesAll source t.children := by
  cases t
  rfl

theorem substitutionsAmong_cons_of_eq (h : t.kind = .substitution) :
    substitutionsAmong (t :: ts) = t.span :: substitutionsAmong ts := by
  simp [substitutionsAmong, h]

theorem substitutionsAmong_cons_of_ne (h : t.kind ≠ .substitution) :
    substitutionsAmong (t :: ts) = substitutionsAmong ts := by
  simp [substitutionsAmong, h]

theorem substitutionsAmong_inBytesAll (ts : List Tree) :
    substitutionsAmong (inBytesAll source ts) =
      (substitutionsAmong ts).map (Span.inBytes source) := by
  induction ts with
  | nil => rfl
  | cons t ts ih =>
    by_cases hKind : t.kind = .substitution
    · rw [inBytesAll, substitutionsAmong_cons_of_eq ((kind_inBytes t).trans hKind), span_inBytes, ih,
        substitutionsAmong_cons_of_eq hKind, List.map_cons]
    · rw [inBytesAll, substitutionsAmong_cons_of_ne (by rwa [kind_inBytes]), ih,
        substitutionsAmong_cons_of_ne hKind]

theorem substitutions_inBytes (t : Tree) :
    (t.inBytes source).substitutions = t.substitutions.map (Span.inBytes source) := by
  rw [substitutions, children_inBytes]
  exact substitutionsAmong_inBytesAll t.children

/-! ## The loop -/

/-- The loop over the children of a node yields what their substitutions leave of the stretch from
where it is to the character that closes the node. The offset that it carries is the one at which
this stretch starts. -/
theorem segmentTextsFrom_inBytes {whole rest : Span} (hStart : whole.start ≤ rest.start)
    (hStop : rest.stop ≤ whole.stop)
    (hClosed : byteOffset source whole.stop = byteOffset source rest.stop + 1)
    (h : rest.HoldsInOrder (substitutionsAmong ts)) :
    segmentTextsFrom ((whole.inBytes source).slice (encodeChars source))
        (byteOffset source whole.start) (byteOffset source rest.start - byteOffset source whole.start)
        (inBytesAll source ts) =
      .ok ((rest.between (substitutionsAmong ts)).map fun s => String.ofList (s.slice source)) := by
  induction ts generalizing rest with
  | nil =>
    have hEnd : ((whole.inBytes source).slice (encodeChars source)).length - 1 =
        byteOffset source rest.stop - byteOffset source whole.start := by
      have hOrder := Nat.le_trans hStart (Nat.le_trans h.start_le_stop hStop)
      have hLength : byteOffset source whole.stop =
          byteOffset source whole.start + (encodeChars (whole.slice source)).length :=
        byteOffset_add source hOrder
      rw [Span.slice_inBytes hOrder]
      omega
    rw [inBytesAll, segmentTextsFrom, hEnd, decode_slice source hStart h.start_le_stop hStop]
    rfl
  | cons t ts ih =>
    by_cases hKind : t.kind = .substitution
    · rw [substitutionsAmong_cons_of_eq hKind] at h ⊢
      have hBefore : t.span.start ≤ whole.stop :=
        Nat.le_trans h.2.1 (Nat.le_trans h.stop_le hStop)
      have hBehind : whole.start ≤ t.span.stop := Nat.le_trans hStart (Nat.le_trans h.1 h.2.1)
      have hText := decode_slice source hStart h.1 hBefore
      have hMore := @ih ⟨t.span.stop, rest.stop⟩ hBehind hStop hClosed h.2.2
      rw [inBytesAll, segmentTextsFrom, kind_inBytes, if_pos (beq_iff_eq.mpr hKind), span_inBytes,
        Span.inBytes_start, Span.inBytes_stop, hText]
      simp only [hMore]
      rfl
    · rw [substitutionsAmong_cons_of_ne hKind] at h ⊢
      rw [inBytesAll, segmentTextsFrom, kind_inBytes, if_neg (by simpa using hKind)]
      exact ih hStart hStop hClosed h

theorem IsTemplate.segmentTexts_eq (h : t.IsTemplate source) :
    segmentTexts (encodeChars source) (t.inBytes source) =
      .ok ((t.segments source).map String.ofList) := by
  have hOrder : t.span.start + 1 ≤ t.span.stop - 1 := h.ordered.start_le_stop
  have hClosed : byteOffset source t.span.stop = byteOffset source (t.span.stop - 1) + 1 := by
    rw [← byteOffset_backtick h.closed]
    congr 1
    omega
  have hOpened : byteOffset source t.inside.start - byteOffset source t.span.start = 1 := by
    rw [inside, byteOffset_backtick h.opened, Nat.add_sub_cancel_left]
  have hLoop := segmentTextsFrom_inBytes (Nat.le_succ t.span.start) (Nat.sub_le t.span.stop 1) hClosed
    h.ordered
  rw [hOpened] at hLoop
  rw [segmentTexts, span_inBytes, children_inBytes, segments, List.map_map]
  exact hLoop

/-- A template is its segments and its substitutions in turns, between backticks. -/
theorem IsTemplate.slice_eq (h : t.IsTemplate source) :
    t.span.slice source =
      '\x60' :: interleave (t.segments source) (t.substitutions.map (Span.slice source)) ++ ['\x60'] := by
  have hOrder : t.span.start + 1 ≤ t.span.stop - 1 := h.ordered.start_le_stop
  have hClosed := Span.slice_singleton h.closed
  rw [show t.span.stop - 1 + 1 = t.span.stop by omega] at hClosed
  have hInside : interleave (t.segments source) (t.substitutions.map (Span.slice source)) =
      Span.slice source ⟨t.span.start + 1, t.span.stop - 1⟩ :=
    Span.interleave_between h.ordered
  rw [hInside, ← hClosed, ← List.singleton_append, ← Span.slice_singleton h.opened,
    Span.slice_append (Nat.le_succ _) hOrder, Span.slice_append (by omega) (by omega)]

/-- The same for the bytes of a template and of its substitutions. -/
theorem IsTemplate.slice_inBytes_eq (h : t.IsTemplate source) :
    (t.inBytes source).span.slice (encodeChars source) =
      0x60 :: interleave ((t.segments source).map encodeChars)
        ((t.inBytes source).substitutions.map (Span.slice (encodeChars source))) ++ [0x60] := by
  have hOrder : t.span.start ≤ t.span.stop := by
    have hInside : t.span.start + 1 ≤ t.span.stop - 1 := h.ordered.start_le_stop
    omega
  have hSubstitutions : (t.inBytes source).substitutions.map (Span.slice (encodeChars source)) =
      (t.substitutions.map (Span.slice source)).map encodeChars := by
    rw [substitutions_inBytes, List.map_map, List.map_map]
    exact Span.map_slice_inBytes h.ordered
  rw [span_inBytes, Span.slice_inBytes hOrder, h.slice_eq, hSubstitutions, ← encodeChars_interleave,
    Utf8.encodeChars_append]
  rfl

/-- The texts of a template around its substitutions are decoded from its bytes without fail and are
the segments of its characters. There is one more of them than there are substitutions, and the
bytes of the texts and the bytes of the substitutions in turns are those of the template without
its backticks. -/
theorem segments_partition (source : String) (t : Tree) (h : t.IsTemplate source.toList) :
    ∃ texts, segmentTexts (Utf8.encode source) (t.inBytes source.toList) = .ok texts ∧
      texts = (t.segments source.toList).map String.ofList ∧
      texts.length = t.substitutions.length + 1 ∧
      (t.inBytes source.toList).span.slice (Utf8.encode source) =
        0x60 :: interleave (texts.map Utf8.encode)
          ((t.inBytes source.toList).substitutions.map (Span.slice (Utf8.encode source))) ++
          [0x60] := by
  have hBytes : ((t.segments source.toList).map String.ofList).map Utf8.encode =
      (t.segments source.toList).map encodeChars := by
    rw [List.map_map]
    exact List.map_congr_left fun cs _ => Utf8.encode_ofList cs
  refine ⟨_, h.segmentTexts_eq, rfl, ?_, ?_⟩
  · rw [List.length_map, segments, List.length_map, Span.length_between]
  · rw [hBytes]
    exact h.slice_inBytes_eq

/-- In the source ``é=`ß${a}${`x${b}`}ü`;`` letters of two bytes stand in front of a template and next
to its substitutions, of which there are two side by side, and the second one holds a template. -/
theorem segments_partition_nested :
    let source := "é=\x60ß$\x7ba\x7d$\x7b\x60x$\x7bb\x7d\x60\x7dü\x60;"
    let inner : Tree := .node .template ⟨10, 17⟩
      [.node .substitution ⟨12, 16⟩ [.node .name ⟨14, 15⟩ []]]
    let outer : Tree := .node .template ⟨2, 20⟩
      [.node .other ⟨2, 3⟩ [], .node .substitution ⟨4, 8⟩ [.node .name ⟨6, 7⟩ []],
        .node .substitution ⟨8, 18⟩ [inner], .node .other ⟨19, 20⟩ []]
    inner.IsTemplate source.toList ∧ outer.IsTemplate source.toList ∧
      segmentTexts (Utf8.encode source) (inner.inBytes source.toList) = .ok ["x", ""] ∧
      segmentTexts (Utf8.encode source) (outer.inBytes source.toList) = .ok ["ß", "", "ü"] ∧
      Utf8.encode "\x60ß$\x7ba\x7d$\x7b\x60x$\x7bb\x7d\x60\x7dü\x60" =
        0x60 :: interleave [Utf8.encode "ß", Utf8.encode "", Utf8.encode "ü"]
          [Utf8.encode "$\x7ba\x7d", Utf8.encode "$\x7b\x60x$\x7bb\x7d\x60\x7d"] ++ [0x60] := by
  intro source inner outer
  have hInner : inner.IsTemplate source.toList := ⟨rfl, by decide, by decide, by decide⟩
  have hOuter : outer.IsTemplate source.toList := ⟨rfl, by decide, by decide, by decide⟩
  obtain ⟨texts, hTexts, rfl, -⟩ := segments_partition source inner hInner
  obtain ⟨texts', hTexts', rfl, -, hBytes⟩ := segments_partition source outer hOuter
  have hSegments : (inner.segments source.toList).map String.ofList = ["x", ""] := by decide
  have hSegments' : (outer.segments source.toList).map String.ofList = ["ß", "", "ü"] := by decide
  have hSubstitutions :
      (outer.inBytes source.toList).substitutions.map (Span.slice (Utf8.encode source)) =
        [Utf8.encode "$\x7ba\x7d", Utf8.encode "$\x7b\x60x$\x7bb\x7d\x60\x7d"] := by decide
  have hWhole : (outer.inBytes source.toList).span.slice (Utf8.encode source) =
      Utf8.encode "\x60ß$\x7ba\x7d$\x7b\x60x$\x7bb\x7d\x60\x7dü\x60" := by decide
  rw [hSegments] at hTexts
  rw [hSegments'] at hTexts' hBytes
  rw [hSubstitutions, hWhole] at hBytes
  exact ⟨hInner, hOuter, hTexts, hTexts', hBytes⟩

end Tree

end StyleSieve.Script
