import StyleSieve.Proofs.Engine.Content
import StyleSieve.Proofs.Engine.Source
import StyleSieve.Proofs.Text.Runs
import StyleSieve.Proofs.Usage.Document

/-!
# Names in markup

Markup is text with tags of elements in it. The default extractor knows nothing of markup, but
its tokens hold the names in it, since tags are written with breaks around names. Only the name
of a tag without attributes that closes its element, such as `<hr/>`, is followed by a slash,
and a slash is part of a token.

* `Markup.class_mem_defaultTokens`, `Markup.id_mem_defaultTokens`: classes and identifiers of
  elements are tokens.
* `Markup.tag_mem_defaultTokens`: so is a tag that some element is written with in another way.
* `keeps_iff_of_names`: a selector of such names stays, unless one of its tags is no token.
-/

namespace StyleSieve

open Text

/-! ## Markup -/

/-- An attribute as it is written, with the spacing in front of it. -/
structure WrittenAttribute where
  spacing : List Char
  name : String
  value : String
  spacing_ne_nil : spacing ≠ []
  spacing_blank : spacing.all Selector.isSpacing = true
  value_unquoted : '"' ∉ value.toList

/-- The text of an attribute, its value in quotes. -/
def WrittenAttribute.written (a : WrittenAttribute) : List Char :=
  a.spacing ++ (a.name.toList ++ '=' :: '"' :: (a.value.toList ++ ['"']))

/-- A tag that an element starts with, and in which it may end. -/
structure StartTag where
  name : String
  attributes : List WrittenAttribute
  /-- The spacing in front of the end of the tag. -/
  spacing : List Char
  /-- Whether the element ends in the tag. -/
  isClosed : Bool
  name_plain : IsPlainName name
  name_lower : lower name = name
  name_slashless : '/' ∉ name.toList
  spacing_blank : spacing.all Selector.isSpacing = true

namespace StartTag

/-- What stands behind the name in a tag. -/
def tail (t : StartTag) : List Char :=
  t.attributes.flatMap WrittenAttribute.written ++
    (t.spacing ++ if t.isClosed then ['/', '>'] else ['>'])

/-- The text of a tag. -/
def written (t : StartTag) : List Char := '<' :: (t.name.toList ++ t.tail)

/-- Whether a tag is a name with a slash behind it, and nothing else. -/
def isBare (t : StartTag) : Bool := t.attributes.isEmpty && t.spacing.isEmpty && t.isClosed

/-- The value of an attribute. -/
def value? (t : StartTag) (name : String) : Option String :=
  (t.attributes.find? fun a => a.name == name).map WrittenAttribute.value

/-- The element that starts with a tag. -/
def element (t : StartTag) : Element where
  tag := t.name
  classes := (t.value? "class").elim [] valueWords
  id := t.value? "id"
  attributes := t.attributes.map fun a => (a.name, a.value)

end StartTag

/-- A piece of markup: any text, or the tag of an element. -/
inductive MarkupPiece where
  | text (text : String)
  | tag (tag : StartTag)

/-- Markup, piece by piece. -/
abbrev Markup := List MarkupPiece

namespace MarkupPiece

/-- The text of a piece. -/
def written : MarkupPiece → List Char
  | text s => s.toList
  | tag t => t.written

/-- The tag that a piece is. -/
def tag? : MarkupPiece → Option StartTag
  | text _ => none
  | tag t => some t

end MarkupPiece

namespace Markup

/-- The text of markup. -/
def text (html : Markup) : String := String.ofList (html.flatMap MarkupPiece.written)

/-- The tags in markup. -/
def tags (html : Markup) : List StartTag := html.filterMap MarkupPiece.tag?

/-- The elements in markup. -/
def elements (html : Markup) : List Element := html.tags.map StartTag.element

/-- Classes and identifiers are plain names. -/
def HasPlainNames (html : Markup) : Prop :=
  ∀ e ∈ html.elements, ∀ name ∈ e.classes ++ e.id.toList, IsPlainName name

/-- Some tag has the name, and more than a slash behind it. -/
def WritesApart (html : Markup) (name : String) : Prop :=
  ∃ t ∈ html.tags, t.name = name ∧ t.isBare = false

end Markup

/-! ## Names between breaks -/

theorem isValueBreak_of_isSpacing (c : Char) (h : Selector.isSpacing c = true) :
    isValueBreak c = true := by
  simp only [Selector.isSpacing, Bool.or_eq_true, beq_iff_eq] at h
  rcases h with (((rfl | rfl) | rfl) | rfl) | rfl <;> decide

theorem exists_of_mem_flatMap {α β : Type} {f : α → List β} {xs : List α} {x : α} (h : x ∈ xs) :
    ∃ before after, xs.flatMap f = before ++ (f x ++ after) := by
  obtain ⟨front, back, rfl⟩ := List.append_of_mem h
  exact ⟨front.flatMap f, back.flatMap f, by simp⟩

/-- Behind the name in a tag stands a break, or just a slash and the end of the tag. -/
theorem StartTag.tail_of_not_bare {t : StartTag} (h : t.isBare = false) :
    ∃ c rest, t.tail = c :: rest ∧ isValueBreak c = true := by
  unfold StartTag.tail
  cases hAttributes : t.attributes with
  | cons a more =>
    cases hSpacing : a.spacing with
    | nil => exact absurd hSpacing a.spacing_ne_nil
    | cons c rest =>
      rw [List.flatMap_cons, WrittenAttribute.written, hSpacing]
      exact ⟨c, _, rfl, isValueBreak_of_isSpacing c
        (List.all_eq_true.mp a.spacing_blank c (hSpacing ▸ List.mem_cons_self))⟩
  | nil =>
    cases hSpacing : t.spacing with
    | cons c rest =>
      exact ⟨c, _, rfl, isValueBreak_of_isSpacing c
        (List.all_eq_true.mp t.spacing_blank c (hSpacing ▸ List.mem_cons_self))⟩
    | nil =>
      have hOpen : t.isClosed = false := by simpa [isBare, hAttributes, hSpacing] using h
      rw [hOpen]
      exact ⟨'>', [], rfl, by decide⟩

theorem WrittenAttribute.mem_splitOnP {a : WrittenAttribute} {before after piece : List Char}
    (h : piece ∈ a.value.toList.splitOnP isValueBreak) :
    piece ∈ (before ++ (a.written ++ after)).splitOnP isValueBreak := by
  have hText : before ++ (a.written ++ after) =
      (before ++ (a.spacing ++ (a.name.toList ++ ['=']))) ++
        '"' :: (a.value.toList ++ '"' :: after) := by
    simp [WrittenAttribute.written]
  rw [hText]
  exact mem_splitOnP_right (by decide) (mem_splitOnP_left (by decide) h)

namespace Markup

variable {html : Markup} {t : StartTag} {name : String}

theorem exists_of_mem_tags (h : t ∈ html.tags) :
    ∃ before after, html.text.toList = before ++ (t.written ++ after) := by
  obtain ⟨piece, hPiece, hTag⟩ := List.mem_filterMap.mp h
  cases piece with
  | text s => cases hTag
  | tag t' =>
    cases Option.some.inj hTag
    rw [text, String.toList_ofList]
    exact exists_of_mem_flatMap hPiece

/-- A tag that is written with more than a slash behind it is a token. -/
theorem tag_mem_defaultTokens (h : html.WritesApart name) : name ∈ defaultTokens html.text := by
  obtain ⟨t, ht, rfl, hApart⟩ := h
  obtain ⟨before, after, hText⟩ := exists_of_mem_tags ht
  obtain ⟨c, rest, hTail, hBreak⟩ := StartTag.tail_of_not_bare hApart
  refine mem_defaultTokens t.name_plain ?_
  have hText : html.text.toList = before ++ '<' :: (t.name.toList ++ c :: (rest ++ after)) := by
    rw [hText, StartTag.written, hTail]
    simp
  rw [hText]
  exact mem_splitOnP_of_between (by decide) t.name_plain.not_isValueBreak hBreak

/-- A plain name that stands between breaks in the value of an attribute is a token. -/
theorem value_mem_defaultTokens (ht : t ∈ html.tags) {attributeName value : String}
    (hValue : t.value? attributeName = some value) (hPlain : IsPlainName name)
    (hPiece : name.toList ∈ value.toList.splitOnP isValueBreak) :
    name ∈ defaultTokens html.text := by
  obtain ⟨a, ha, rfl⟩ := Option.map_eq_some_iff.mp hValue
  obtain ⟨before, after, hText⟩ := exists_of_mem_tags ht
  obtain ⟨front, back, hTags⟩ :=
    exists_of_mem_flatMap (f := WrittenAttribute.written) (List.mem_of_find?_eq_some ha)
  refine mem_defaultTokens hPlain ?_
  have hText : html.text.toList = (before ++ '<' :: (t.name.toList ++ front)) ++ (a.written ++
      (back ++ (t.spacing ++ (if t.isClosed then ['/', '>'] else ['>']) ++ after))) := by
    rw [hText, StartTag.written, StartTag.tail, hTags]
    simp
  rw [hText]
  exact WrittenAttribute.mem_splitOnP hPiece

theorem class_mem_defaultTokens (hPlain : html.HasPlainNames) {e : Element}
    (he : e ∈ html.elements) (h : name ∈ e.classes) : name ∈ defaultTokens html.text := by
  have hName : IsPlainName name := hPlain e he name (List.mem_append_left _ h)
  obtain ⟨t, ht, rfl⟩ := List.mem_map.mp he
  cases hValue : t.value? "class" with
  | none =>
    rw [StartTag.element, hValue] at h
    cases h
  | some value =>
    rw [StartTag.element, hValue] at h
    obtain ⟨piece, hPiece, rfl⟩ := List.mem_map.mp h
    refine value_mem_defaultTokens ht hValue hName ?_
    rw [runs_eq_splitOnP] at hPiece
    have hUnbroken := hName.not_isValueBreak
    rw [String.toList_ofList] at hUnbroken ⊢
    exact mem_splitOnP_of_mem isValueBreak_of_isSpacing (List.mem_filter.mp hPiece).1 hUnbroken

theorem id_mem_defaultTokens (hPlain : html.HasPlainNames) {e : Element}
    (he : e ∈ html.elements) (h : e.id = some name) : name ∈ defaultTokens html.text := by
  have hName : IsPlainName name :=
    hPlain e he name (List.mem_append_right _ (Option.mem_toList.mpr h))
  obtain ⟨t, ht, rfl⟩ := List.mem_map.mp he
  refine value_mem_defaultTokens ht h hName ?_
  rw [List.splitOnP_eq_singleton hName.not_isValueBreak]
  exact List.mem_singleton_self _

end Markup

/-! ## Selectors -/

/-- A simple selector names the tag, a class or the identifier of an element. -/
inductive Term.Names (document : List Element) : Term → Prop
  | tag {name : String} {e : Element} (he : e ∈ document) (h : lower name = e.tag) :
      Names document (.tag name)
  | hasClass {name : String} {e : Element} (he : e ∈ document) (h : name ∈ e.classes) :
      Names document (.hasClass name)
  | hasId {name : String} {e : Element} (he : e ∈ document) (h : e.id = some name) :
      Names document (.hasId name)

namespace Usage

variable {u : Usage} {html : Markup}

theorem blocksTerm_of_nil (h : u.blocklist = []) (t : Term) : u.blocksTerm t = false := by
  unfold blocksTerm isBlocked
  rw [h]
  exact Bool.and_false _

theorem usesTerm_tag_iff {name : String} :
    u.usesTerm (.tag name) = true ↔
      u.isSafelisted name = true ∨ name ∈ u.tokens ∨ lower name ∈ u.tokens := by
  rw [usesTerm_iff_of_not_matchesAny rfl, isPresent, Bool.or_eq_true, List.contains_iff_mem,
    List.contains_iff_mem]
  rfl

/-- Of the terms that name something in markup only tags can be out of use, and only if no
token holds them. -/
theorem keepsTerms_iff_of_names (hPlain : html.HasPlainNames)
    (hTokens : ∀ name ∈ defaultTokens html.text, name ∈ u.tokens) (hBlocklist : u.blocklist = [])
    {c : ComplexSelector} (hNames : ∀ t ∈ c, t.Names html.elements) :
    u.keepsTerms c = true ↔ ∀ name, Term.tag name ∈ c →
      html.WritesApart (lower name) ∨ u.isSafelisted name = true ∨ name ∈ u.tokens ∨
        lower name ∈ u.tokens := by
  rw [keepsTerms_iff]
  constructor
  · rintro ⟨-, hUses⟩ name hTag
    exact Or.inr (usesTerm_tag_iff.mp (hUses _ (mem_checkableTerms.mpr ⟨hTag, rfl⟩)))
  · refine fun hTags => ⟨fun t _ => blocksTerm_of_nil hBlocklist t, fun t ht => ?_⟩
    have ht := (mem_checkableTerms.mp ht).1
    cases hNames t ht with
    | @tag name e he hTag =>
      rcases hTags name ht with hApart | hKnown
      · exact usesTerm_tag_iff.mpr
          (Or.inr (Or.inr (hTokens _ (Markup.tag_mem_defaultTokens hApart))))
      · exact usesTerm_tag_iff.mpr hKnown
    | hasClass he hClass =>
      refine (usesTerm_iff_of_not_matchesAny rfl).mpr (Or.inr (List.contains_iff_mem.mpr ?_))
      exact hTokens _ (Markup.class_mem_defaultTokens hPlain he hClass)
    | hasId he hId =>
      refine (usesTerm_iff_of_not_matchesAny rfl).mpr (Or.inr (List.contains_iff_mem.mpr ?_))
      exact hTokens _ (Markup.id_mem_defaultTokens hPlain he hId)

theorem contentTokens_markup {tree : FileTree} {r : PurgeRequest} {text extension : String}
    (hContent : r.content = [.raw ⟨text, extension⟩]) (hFallback : r.fallback = defaultTokens)
    (hExtractors : r.extractors = []) :
    (contentTokens tree r).result = .ok (dedup (defaultTokens text)) := by
  refine result_contentTokens_eq_ok.mpr ⟨[defaultTokens text], ?_, by simp⟩
  have hEntry : r.entryTokens tree (.raw ⟨text, extension⟩) = .ok (defaultTokens text) := by
    unfold PurgeRequest.entryTokens PurgeRequest.textsOf PurgeRequest.tokensAt extractorFor
    rw [hExtractors, hFallback]
    simp [registered?, Registration.run, bind, Except.bind, pure, Except.pure]
  rw [hContent]
  exact mapM_eq_ok_iff.mpr (.cons hEntry .nil)

/-- A selector that names tags, classes and identifiers of the markup stays if and only if the
safelist speaks of it, or each of its tags is written with more than a slash behind it, is
safelisted or is a token for another reason. -/
theorem keeps_iff_of_names {tree : FileTree} {r : PurgeRequest} {extension selector : String}
    {cs : List ComplexSelector} (hContent : r.content = [.raw ⟨html.text, extension⟩])
    (hFallback : r.fallback = defaultTokens) (hExtractors : r.extractors = [])
    (hBlocklist : r.blocklist = []) (hPlain : html.HasPlainNames)
    (hParse : Selector.parse selector = .ok cs)
    (hNames : ∀ c ∈ cs, ∀ t ∈ c, t.Names html.elements) :
    ∃ tokens, (contentTokens tree r).result = .ok tokens ∧
      ((r.usage tokens).keeps selector = true ↔
        (r.usage tokens).isProtected selector = true ∨
        (r.usage tokens).isSafelisted selector = true ∨
        ∀ c ∈ cs, ∀ name, Term.tag name ∈ c → html.WritesApart (lower name) ∨
          (r.usage tokens).isSafelisted name = true ∨ name ∈ tokens ∨ lower name ∈ tokens) := by
  refine ⟨_, contentTokens_markup hContent hFallback hExtractors, ?_⟩
  rw [keeps_iff, hParse]
  simp only [Except.ok.injEq, forall_eq']
  have hTokens : ∀ name ∈ defaultTokens html.text, name ∈ dedup (defaultTokens html.text) :=
    fun _ => mem_dedup.mpr
  constructor
  · exact fun h => h.imp_right fun h => h.imp_right fun h c hc =>
      (keepsTerms_iff_of_names hPlain hTokens hBlocklist (hNames c hc)).mp (h c hc)
  · exact fun h => h.imp_right fun h => h.imp_right fun h c hc =>
      (keepsTerms_iff_of_names hPlain hTokens hBlocklist (hNames c hc)).mpr (h c hc)

/-- A tag with attributes that closes its element: its name and its classes are in use. -/
theorem keeps_of_closed_tag :
    let classes : WrittenAttribute := {
      spacing := [' '], name := "class", value := "a b"
      spacing_ne_nil := by decide, spacing_blank := by decide, value_unquoted := by decide }
    let start : StartTag := {
      name := "p", attributes := [classes], spacing := [], isClosed := true
      name_plain := ⟨by decide, by decide, by decide⟩, name_lower := by decide +kernel
      name_slashless := by decide, spacing_blank := rfl }
    let html : Markup := [.tag start, .text "text"]
    let r : PurgeRequest := {
      css := [], content := [.raw ⟨html.text, "html"⟩], safelist := {}, blocklist := []
      defaultExtractor := none, extractors := [], skippedContent := []
      wantsSelectors := true, wantsRules := true }
    html.text = "<p class=\"a b\"/>text" ∧
      ∃ tokens, (contentTokens ⟨[], []⟩ r).result = .ok tokens ∧
        (r.usage tokens).keeps "P.b" = true := by
  intro classes start html r
  have hParse : Selector.parse "P.b" = .ok [[.tag "P", .hasClass "b"]] := by decide +kernel
  have hElement : start.element = ⟨"p", ["a", "b"], none, [("class", "a b")]⟩ := by
    decide +kernel
  have hPlain : html.HasPlainNames := by
    intro e he name hName
    rw [List.mem_singleton.mp he, hElement] at hName
    simp only [Option.toList_none, List.append_nil, List.mem_cons, List.not_mem_nil,
      or_false] at hName
    rcases hName with rfl | rfl <;> exact ⟨by decide, by decide, by decide⟩
  have hNames : ∀ c ∈ [[Term.tag "P", Term.hasClass "b"]], ∀ t ∈ c, t.Names html.elements := by
    intro c hc t ht
    rw [List.mem_singleton.mp hc] at ht
    rcases List.mem_cons.mp ht with rfl | ht
    · exact .tag (e := start.element) List.mem_cons_self (by decide +kernel)
    · rw [List.mem_singleton.mp ht]
      exact .hasClass (e := start.element) List.mem_cons_self (by decide +kernel)
  obtain ⟨tokens, hTokens, hKeeps⟩ :=
    @keeps_iff_of_names _ ⟨[], []⟩ r _ _ _ rfl rfl rfl rfl hPlain hParse hNames
  refine ⟨by decide +kernel, tokens, hTokens, hKeeps.mpr (Or.inr (Or.inr fun c hc name hTag => ?_))⟩
  rw [List.mem_singleton.mp hc] at hTag
  simp only [List.mem_cons, Term.tag.injEq, reduceCtorEq, List.not_mem_nil, or_false] at hTag
  rw [hTag]
  exact Or.inl ⟨start, List.mem_cons_self, by decide +kernel, rfl⟩

/-- The name of a bare tag is in the markup, but it is no token. -/
theorem not_keeps_of_bare_tag :
    let start : StartTag := {
      name := "hr", attributes := [], spacing := [], isClosed := true
      name_plain := ⟨by decide, by decide, by decide⟩, name_lower := by decide +kernel
      name_slashless := by decide, spacing_blank := rfl }
    let html : Markup := [.tag start]
    let r : PurgeRequest := {
      css := [], content := [.raw ⟨html.text, "html"⟩], safelist := {}, blocklist := []
      defaultExtractor := none, extractors := [], skippedContent := []
      wantsSelectors := true, wantsRules := true }
    html.text = "<hr/>" ∧ html.HasPlainNames ∧ Selector.parse "hr" = .ok [[.tag "hr"]] ∧
      (Term.tag "hr").Names html.elements ∧
      (contentTokens ⟨[], []⟩ r).result = .ok ["hr/"] ∧ (r.usage ["hr/"]).keeps "hr" = false := by
  intro start html r
  refine ⟨by decide +kernel, fun e he name hName => ?_, by decide +kernel,
    .tag (e := start.element) List.mem_cons_self (by decide +kernel), by decide +kernel,
    by decide +kernel⟩
  rw [List.mem_singleton.mp he] at hName
  cases hName

end Usage

end StyleSieve
