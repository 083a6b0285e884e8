import StyleSieve.Proofs.Stylesheet.Entries
import StyleSieve.Proofs.Stylesheet.ReadBack

/-!
# Rules with some of their selectors

A rule that is written with some of its selectors only is read as the rule with these selectors, if
the lexemes of the selectors and of the block are read again where they are written and the first
selector starts a rule.

* `read_withSelectors`: what is read of a rule of a text with some of its selectors.
* `not_read_withSelectors`: a selector with a comment in front is read in another way once it heads
  its rule.
-/

namespace StyleSieve

open Css

namespace Stylesheet

variable {f : FoundRule} {ls : List Lexeme} {sub : List String}

/-! ## Reading a rule alone -/

theorem read_text_of_isReadable [Surrogates] {rule : StyleRule} (h : rule.IsReadable) :
    (read rule.text).nodes = [.style rule] := by
  obtain ⟨⟨ps, hPrelude, hSplit⟩, bs, hBlock⟩ := h
  have hText : rule.text.toList = rule.prelude.toList ++ '{' :: (rule.block.toList ++ '}' :: []) := by
    simp [StyleRule.text]
  have hPlain : rule.text.toList.all isPlain = true :=
    plain_block hPrelude.spells.plain hBlock.plain
  have hRule : styleRule (formed ps) (formed bs) = rule := by
    rw [styleRule, written_spelled hPrelude.spells.written, hSplit, written_spelled hBlock.written]
  rw [nodes_read, normalize_of_plain hPlain, hText, lexemes_block hPrelude.spells.reads hBlock.reads,
    lexemes_nil, formed_headed_block hPrelude.spells.balanced hBlock.balanced rfl,
    gather_style hPrelude.starts hPrelude.flat, hRule]
  rfl

/-! ## Some of the selectors -/

theorem exists_part_of_mem_selectors {s : String} (h : s ∈ f.rule.selectors) :
    ∃ part ∈ splitAtCommas [] f.prelude, Text.trim (written part) = s ∧ s ≠ "" := by
  obtain ⟨hMem, hSome⟩ := List.mem_filter.mp h
  obtain ⟨part, hPart, hText⟩ := List.mem_map.mp hMem
  refine ⟨part, hPart, hText, ?_⟩
  rintro rfl
  cases hSome

theorem exists_spells_block [Surrogates] (h : f.Stands ls) (hGrown : IsGrown ls)
    (hBlock : isTame (flatAll f.content) = true) : ∃ bs, Spells f.rule.block.toList bs := by
  obtain ⟨tail, hPart⟩ := exists_isPart_content h hGrown hBlock
  have hText : f.rule.block.toList = writtenAfter none f.content := String.toList_ofList
  exact ⟨_, hText ▸ spells_spaced h.content hPart⟩

/-- Selectors of a rule whose parts are firm head a rule if the first one does. -/
theorem exists_headsRule [Surrogates] (h : f.Stands ls) (hGrown : IsGrown ls)
    (hSub : ∀ s ∈ sub, s ∈ f.rule.selectors) (hSome : sub ≠ [])
    (hFirm : ∀ part ∈ splitAtCommas [] f.prelude, Text.trim (written part) ∈ sub → IsFirm part)
    (hStarts : ∀ part ∈ splitAtCommas [] f.prelude, sub.head? = some (Text.trim (written part)) →
      startsRule (core part) = true) :
    ∃ ps, HeadsRule (listed sub) ps ∧ splitSelectors (formed ps) = sub := by
  have hEntry : ∀ s ∈ sub, ∃ part ∈ splitAtCommas [] f.prelude, Text.trim (written part) = s ∧
      allWhole (core part) = true ∧ IsEntry s.toList (spaced none (flatAll (core part))) := by
    intro s hs
    obtain ⟨part, hPart, rfl, hText⟩ := exists_part_of_mem_selectors (hSub s hs)
    exact ⟨part, hPart, rfl, allWhole_core h hPart,
      isEntry_of_isFirm h hGrown hPart (hFirm part hPart hs) hText⟩
  obtain ⟨first, more, rfl⟩ := List.exists_cons_of_ne_nil hSome
  obtain ⟨part, hPart, hText, hWhole, hFirst⟩ := hEntry first List.mem_cons_self
  refine headsRule_listed hFirst ?_ fun s hs => ?_
  · rw [startsRule_formed_spaced hWhole]
    exact hStarts part hPart (by rw [hText]; rfl)
  · obtain ⟨part, -, -, -, hNext⟩ := hEntry s (List.mem_cons_of_mem first hs)
    exact ⟨_, hNext⟩

/-- A rule of a text with some of its selectors is read as one rule with these selectors and the same
block. -/
theorem read_withSelectors [Surrogates] {source : String} (hFound : f ∈ foundIn source)
    (hBlock : isTame (flatAll f.content) = true) (hSub : sub.Sublist f.rule.selectors) (hSome : sub ≠ [])
    (hProper : sub ≠ f.rule.selectors)
    (hFirm : ∀ part ∈ splitAtCommas [] f.prelude, Text.trim (written part) ∈ sub → IsFirm part)
    (hStarts : ∀ part ∈ splitAtCommas [] f.prelude, sub.head? = some (Text.trim (written part)) →
      startsRule (core part) = true) :
    (read (f.rule.withSelectors sub).text).nodes =
      [.style ⟨String.intercalate ", " sub, sub, f.rule.block⟩] := by
  have hStands := stands_of_mem_foundIn hFound
  have hGrown := isGrown_flatAll_components source
  have hRule : f.rule.withSelectors sub = ⟨String.intercalate ", " sub, sub, f.rule.block⟩ := by
    rw [StyleRule.withSelectors, if_neg (by simpa using hProper)]
  rw [hRule]
  exact read_text_of_isReadable
    ⟨exists_headsRule hStands hGrown (fun s hs => hSub.subset hs) hSome hFirm hStarts,
      exists_spells_block hStands hGrown hBlock⟩

/-- The second of three selectors of a rule inside of an at-rule, with an escape that is not needed. -/
theorem read_withSelectors_second :
    ∃ f ∈ foundIn "@media print\x7b.a, .b\\63 > d ,e\x7bw: 1px\x7d\x7d",
      f.rule.selectors = [".a", ".bc> d", "e"] ∧
      (read (f.rule.withSelectors [".bc> d"]).text).nodes =
        [.style ⟨".bc> d", [".bc> d"], "w: 1px"⟩] := by
  have hFound : ∃ f ∈ foundIn "@media print\x7b.a, .b\\63 > d ,e\x7bw: 1px\x7d\x7d",
      f.rule = ⟨".a, .bc> d ,e", [".a", ".bc> d", "e"], "w: 1px"⟩ ∧
      isTame (flatAll f.content) = true ∧
      ∀ part ∈ splitAtCommas [] f.prelude, IsFirm part ∧ startsRule (core part) = true := by
    decide +kernel
  obtain ⟨f, hf, hRule, hBlock, hParts⟩ := hFound
  have hSelectors : f.rule.selectors = [".a", ".bc> d", "e"] := congrArg StyleRule.selectors hRule
  refine ⟨f, hf, hSelectors, ?_⟩
  rw [read_withSelectors hf hBlock (by rw [hSelectors]; decide) (by decide) (by rw [hSelectors]; decide)
    (fun part hPart _ => (hParts part hPart).1) (fun part hPart _ => (hParts part hPart).2), hRule]
  rfl

/-- A selector with a comment in front is read as a comment and a rule once it heads its rule. -/
theorem not_read_withSelectors :
    ¬ ∀ (source : String) (f : FoundRule) (sub : List String), f ∈ foundIn source →
      isFlawless (flatAll f.content) = true → sub.Sublist f.rule.selectors → sub ≠ [] →
        sub ≠ f.rule.selectors →
          ∃ head, (read (f.rule.withSelectors sub).text).nodes =
            [.style ⟨head, sub, f.rule.block⟩] := by
  intro h
  let rule : StyleRule := ⟨".drop, /* c */ .gone", [".drop", "/* c */ .gone"], ""⟩
  have hFound : ∃ f ∈ foundIn ".drop, /* c */ .gone\x7b\x7d",
      f.rule = rule ∧ isFlawless (flatAll f.content) = true := by
    decide +kernel
  obtain ⟨f, hf, hRule, hWhole⟩ := hFound
  have hSub : ["/* c */ .gone"].Sublist f.rule.selectors := by
    rw [hRule]
    decide
  obtain ⟨head, hRead⟩ := h _ f ["/* c */ .gone"] hf hWhole hSub (by decide) (by rw [hRule]; decide)
  have hNodes : (read (rule.withSelectors ["/* c */ .gone"]).text).nodes.length = 3 := by
    decide +kernel
  rw [← hRule, hRead] at hNodes
  cases hNodes

end Stylesheet

end StyleSieve
