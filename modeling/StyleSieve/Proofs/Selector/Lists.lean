import StyleSieve.Selector.Parser

/-!
# The structure of selector lists

Tokens that are gathered into a selector list have the structure of one: terms and combinators
between commas, with further selector lists between parentheses.

* `exists_lists_of_gather`: what is gathered has this structure.
* `Lists.gather_eq`: what has this structure is gathered.
-/

namespace StyleSieve.Selector

variable {α : Type} {token : α → Token} {x y : α} {xs inner : List α} {ts ts' : List Term}
  {more more' result : List ComplexSelector}

/-- The term of a token that stands for one. -/
def Token.term? : Token → Option Term
  | .tag name => some (.tag (gather.text name))
  | .universal => some .universal
  | .hasClass name => some (.hasClass (gather.text name))
  | .hasId name => some (.hasId (gather.text name))
  | .attribute text => attributeTerm? text
  | .pseudo kind name => some (.pseudo kind (Text.lower (gather.text name)) none)
  | .function kind head argument =>
    some (.pseudo kind (String.ofList (openingName head))
      (some (String.ofList (Text.trimChars (argument.getD [])))))
  | _ => none

/-- The tokens of a selector list behind some of its terms: those that the complex selector goes on
with, and the complex selectors that follow. -/
inductive Lists (token : α → Token) : List α → List Term → List ComplexSelector → Prop where
  | nil : Lists token [] [] []
  | simple {x : α} {xs : List α} {t : Term} {ts : List Term} {more : List ComplexSelector}
      (hTerm : (token x).term? = some t) (h : Lists token xs ts more) :
      Lists token (x :: xs) (t :: ts) more
  | joint {x : α} {xs : List α} {ts : List Term} {more : List ComplexSelector}
      (hToken : token x = .combinator) (h : Lists token xs ts more) : Lists token (x :: xs) ts more
  | comma {x : α} {xs : List α} {ts : List Term} {more : List ComplexSelector}
      (hToken : token x = .comma) (h : Lists token xs ts more) : Lists token (x :: xs) [] (ts :: more)
  | nested {x y : α} {inner xs : List α} {kind : PseudoKind} {opening : List Char}
      {ts ts' : List Term} {more more' : List ComplexSelector}
      (hOpening : token x = .opening kind opening) (hClosing : token y = .closing)
      (hInner : Lists token inner ts' more') (h : Lists token xs ts more) :
      Lists token (x :: (inner ++ y :: xs))
        (.nested kind (String.ofList (openingName opening)) (ts' :: more') :: ts) more

/-! ## From gathering to structure -/

/-- What follows a selector list: the end, or the closing parenthesis of the pseudo selector that
waits for it. -/
def IsClosed (token : α → Token) (stack : List Waiting) (selectors : List ComplexSelector)
    (xs : List α) (result : List ComplexSelector) : Prop :=
  match stack with
  | [] => xs = [] ∧ result = selectors
  | top :: outer => ∃ y rest, xs = y :: rest ∧ token y = .closing ∧
      gather outer top.done (.nested top.kind top.name selectors :: top.terms) (rest.map token) =
        .ok result

theorem gather_cons_simple {t : Term} {stack : List Waiting} {done : List ComplexSelector}
    {terms : List Term} {tokens : List Token} {first : Token} (hTerm : first.term? = some t)
    (hMore : isRecognised tokens = true) :
    gather stack done terms (first :: tokens) = gather stack done (t :: terms) tokens := by
  match first, hTerm with
  | .attribute text, hTerm =>
    change attributeTerm? text = some t at hTerm
    rw [gather, if_pos hMore, hTerm]
  | .tag _, hTerm =>
    cases hTerm
    rfl
  | .universal, hTerm =>
    cases hTerm
    rfl
  | .hasClass _, hTerm =>
    cases hTerm
    rfl
  | .hasId _, hTerm =>
    cases hTerm
    rfl
  | .pseudo _ _, hTerm =>
    cases hTerm
    rfl
  | .function _ _ _, hTerm =>
    cases hTerm
    rfl

/-- A gathered token stands for a term, or it is one of those that give the structure. -/
theorem gather_cons_cases {stack : List Waiting} {done : List ComplexSelector} {terms : List Term}
    {tokens : List Token} {first : Token} (h : gather stack done terms (first :: tokens) = .ok result) :
    (∃ t, first.term? = some t ∧ gather stack done (t :: terms) tokens = .ok result) ∨
      (first = .combinator ∧ gather stack done terms tokens = .ok result) ∨
      (first = .comma ∧ gather stack (terms.reverse :: done) [] tokens = .ok result) ∨
      (∃ kind opening, first = .opening kind opening ∧
        gather (⟨kind, String.ofList (openingName opening), done, terms⟩ :: stack) [] [] tokens =
          .ok result) ∨
      (∃ top outer, first = .closing ∧ stack = top :: outer ∧
        gather outer top.done (.nested top.kind top.name (terms.reverse :: done).reverse :: top.terms)
          tokens = .ok result) := by
  match first, h with
  | .attribute text, h =>
    rw [gather] at h
    split at h
    · split at h
      · rename_i t hTerm
        exact Or.inl ⟨t, hTerm, h⟩
      · cases h
    · cases h
  | .tag _, h => exact Or.inl ⟨_, rfl, h⟩
  | .universal, h => exact Or.inl ⟨_, rfl, h⟩
  | .hasClass _, h => exact Or.inl ⟨_, rfl, h⟩
  | .hasId _, h => exact Or.inl ⟨_, rfl, h⟩
  | .pseudo _ _, h => exact Or.inl ⟨_, rfl, h⟩
  | .function _ _ _, h => exact Or.inl ⟨_, rfl, h⟩
  | .combinator, h => exact Or.inr (Or.inl ⟨rfl, h⟩)
  | .comma, h => exact Or.inr (Or.inr (Or.inl ⟨rfl, h⟩))
  | .opening kind opening, h => exact Or.inr (Or.inr (Or.inr (Or.inl ⟨kind, opening, rfl, h⟩)))
  | .closing, h =>
    cases stack with
    | nil => cases h
    | cons top outer => exact Or.inr (Or.inr (Or.inr (Or.inr ⟨top, outer, rfl, rfl, h⟩)))

/-- What is gathered is a selector list up to the end or to the parenthesis that closes it. -/
theorem exists_lists_of_gather {stack : List Waiting} {done : List ComplexSelector}
    {terms : List Term} (h : gather stack done terms (xs.map token) = .ok result) :
    ∃ inner rest ts more, xs = inner ++ rest ∧ Lists token inner ts more ∧
      IsClosed token stack (done.reverse ++ (terms.reverse ++ ts) :: more) rest result := by
  induction hLength : xs.length using Nat.strongRecOn generalizing xs stack done terms with
  | ind n ih =>
  cases xs with
  | nil =>
    cases stack with
    | nil =>
      cases h
      exact ⟨[], [], [], [], rfl, .nil, rfl, by simp⟩
    | cons top outer => cases h
  | cons x xs =>
    have hShorter : xs.length < n := by
      rw [List.length_cons] at hLength
      omega
    rcases gather_cons_cases h with ⟨t, hTerm, h⟩ | ⟨hToken, h⟩ | ⟨hToken, h⟩ |
      ⟨kind, opening, hToken, h⟩ | ⟨top, outer, hToken, rfl, hRest⟩
    · obtain ⟨inner, rest, ts, more, rfl, hLists, hClosed⟩ := ih _ hShorter h rfl
      exact ⟨x :: inner, rest, t :: ts, more, rfl, .simple hTerm hLists, by simpa using hClosed⟩
    · obtain ⟨inner, rest, ts, more, rfl, hLists, hClosed⟩ := ih _ hShorter h rfl
      exact ⟨x :: inner, rest, ts, more, rfl, .joint hToken hLists, hClosed⟩
    · obtain ⟨inner, rest, ts, more, rfl, hLists, hClosed⟩ := ih _ hShorter h rfl
      exact ⟨x :: inner, rest, [], ts :: more, rfl, .comma hToken hLists, by simpa using hClosed⟩
    · -- the arguments come first, and then what follows the closing parenthesis
      obtain ⟨inner, _, ts', more', rfl, hInner, y, rest, rfl, hClosing, hRest⟩ := ih _ hShorter h rfl
      have hBehind : rest.length < n := by
        rw [List.length_append, List.length_cons] at hShorter
        omega
      obtain ⟨behind, rest, ts, more, rfl, hLists, hClosed⟩ := ih _ hBehind hRest rfl
      refine ⟨x :: (inner ++ y :: behind), rest, _, more, by simp,
        .nested hToken hClosing hInner hLists, ?_⟩
      simpa using hClosed
    · refine ⟨[], x :: xs, [], [], rfl, .nil, x, xs, rfl, hToken, ?_⟩
      simpa using hRest

/-- What is gathered as a whole is a selector list. -/
theorem lists_of_gather (h : gather [] [] [] (xs.map token) = .ok result) :
    ∃ ts more, result = ts :: more ∧ Lists token xs ts more := by
  obtain ⟨inner, rest, ts, more, rfl, hLists, rfl, rfl⟩ := exists_lists_of_gather h
  exact ⟨ts, more, by simp, by simpa using hLists⟩

/-! ## From structure to gathering -/

theorem Token.isRecognised_of_term? {t : Term} {first : Token} (h : first.term? = some t)
    (tokens : List Token) : isRecognised (first :: tokens) = true := by
  unfold isRecognised
  split
  · rename_i hSame
    cases hSame
    cases h
  · rfl

theorem Lists.isRecognised (h : Lists token xs ts more) {rest : List Token}
    (hRest : isRecognised rest = true) : isRecognised (xs.map token ++ rest) = true := by
  cases h with
  | nil => exact hRest
  | simple hTerm => exact Token.isRecognised_of_term? hTerm _
  | joint hToken =>
    rw [List.map_cons, hToken]
    rfl
  | comma hToken =>
    rw [List.map_cons, hToken]
    rfl
  | nested hOpening =>
    rw [List.map_cons, hOpening]
    rfl

/-- A selector list is gathered; its last complex selector stays open. -/
theorem Lists.exists_gather (h : Lists token xs ts more) {rest : List Token}
    (hRest : Selector.isRecognised rest = true) (stack : List Waiting) (done : List ComplexSelector)
    (terms : List Term) :
    ∃ done' terms', gather stack done terms (xs.map token ++ rest) = gather stack done' terms' rest ∧
      (terms'.reverse :: done').reverse = done.reverse ++ (terms.reverse ++ ts) :: more := by
  induction h generalizing stack done terms rest with
  | nil => exact ⟨done, terms, rfl, by simp⟩
  | simple hTerm h ih =>
    obtain ⟨done', terms', hGather, hDone⟩ := ih hRest stack done (_ :: terms)
    refine ⟨done', terms', ?_, by simpa using hDone⟩
    rw [List.map_cons, List.cons_append, gather_cons_simple hTerm (h.isRecognised hRest), hGather]
  | joint hToken h ih =>
    obtain ⟨done', terms', hGather, hDone⟩ := ih hRest stack done terms
    refine ⟨done', terms', ?_, hDone⟩
    rw [List.map_cons, List.cons_append, hToken, gather, hGather]
  | comma hToken h ih =>
    obtain ⟨done', terms', hGather, hDone⟩ := ih hRest stack (terms.reverse :: done) []
    refine ⟨done', terms', ?_, by simpa using hDone⟩
    rw [List.map_cons, List.cons_append, hToken, gather, hGather]
  | @nested x y inner xs kind opening ts ts' more more' hOpening hClosing hInner h ihInner ih =>
    have hBehind : Selector.isRecognised (.closing :: (xs.map token ++ rest)) = true := rfl
    obtain ⟨done₁, terms₁, hArguments, hDone₁⟩ := ihInner hBehind
      (⟨kind, String.ofList (openingName opening), done, terms⟩ :: stack) [] []
    obtain ⟨done', terms', hGather, hDone⟩ := ih hRest stack done
      (.nested kind (String.ofList (openingName opening)) (ts' :: more') :: terms)
    refine ⟨done', terms', ?_, by simpa using hDone⟩
    have hSelectors : (terms₁.reverse :: done₁).reverse = ts' :: more' := by simpa using hDone₁
    have hMap : (x :: (inner ++ y :: xs)).map token ++ rest =
        .opening kind opening :: (inner.map token ++ .closing :: (xs.map token ++ rest)) := by
      simp [hOpening, hClosing]
    rw [hMap, gather, hArguments, gather, hSelectors, hGather]

/-- What has the structure of a selector list is gathered as one. -/
theorem Lists.gather_eq (h : Lists token xs ts more) :
    gather [] [] [] (xs.map token) = .ok (ts :: more) := by
  have hEnd : Selector.isRecognised [] = true := rfl
  obtain ⟨done', terms', hGather, hDone⟩ := h.exists_gather hEnd [] [] []
  rw [List.append_nil] at hGather
  rw [hGather, gather]
  change Except.ok (terms'.reverse :: done').reverse = _
  rw [hDone]
  rfl

end StyleSieve.Selector
