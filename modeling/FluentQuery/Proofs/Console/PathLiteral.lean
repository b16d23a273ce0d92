/-
  The path of a console line. The console takes the shortest content that any quote and a parenthesis
  follow (`shortestContent?_eq_some_iff`), at the first place where the call on the root is found; the
  parser takes the first call of a collection with a literal free of quotes. `path_isLiteral_iff`: the path
  is the literal that the line starts with, and the collection of the parameters, where that literal is
  closed by its own quote and the parenthesis at once, holds no other end of a call, and is read alike by
  the parser; and only there, if the line has no break.
-/
import FluentQuery.Console
import FluentQuery.Proofs.Query.Clauses

namespace FluentQuery

/-- The path that is asked for, if there is one. -/
def ConsoleRequest.path? : ConsoleRequest → Option Text
  | fetchCollection path _ => some path
  | collectionReference path => some path
  | fetchDocument path => some path
  | _ => none

namespace Console

/-! ## Contents -/

theorem closesCall_eq_true_iff {text : Text} : closesCall text = true ↔
    ∃ quote ∈ stringQuotes, ∃ rest, text = quote :: CodePoint.char ')' :: rest := by
  constructor
  · intro h
    unfold closesCall at h
    split at h
    · rename_i quote rest
      exact ⟨quote, of_decide_eq_true h, rest, rfl⟩
    · cases h
  · rintro ⟨quote, hquote, rest, rfl⟩
    exact decide_eq_true hquote

/-- The content ends at the first place behind its first character where a quote and a parenthesis
follow. -/
theorem shortestContent?_eq_some_iff {text content : Text} : shortestContent? text = some content ↔
    ∃ back, text = content ++ back ∧ content ≠ [] ∧ CodePoint.char '\n' ∉ content ∧
      closesCall back = true ∧ ∀ front part, content = front ++ part → front ≠ [] → part ≠ [] →
        closesCall (part ++ back) = false := by
  constructor
  · intro h
    induction text generalizing content with
    | nil => cases h
    | cons c rest ih =>
      unfold shortestContent? at h
      split at h
      · cases h
      · rename_i hbreak
        split at h
        · rename_i hclosed
          cases h
          refine ⟨rest, rfl, List.cons_ne_nil _ _, by simpa using Ne.symm hbreak, hclosed, ?_⟩
          intro front part heq hfront hpart
          cases front with
          | nil => exact absurd rfl hfront
          | cons d front =>
            have hnil := (List.cons.inj heq).2.symm
            exact absurd (List.append_eq_nil_iff.1 hnil).2 hpart
        · rename_i hopened
          obtain ⟨content', hcontent, rfl⟩ := Option.map_eq_some_iff.1 h
          obtain ⟨back, rfl, hne, hbreak', hclosed, hshortest⟩ := ih hcontent
          refine ⟨back, rfl, List.cons_ne_nil _ _, by simp [Ne.symm hbreak, hbreak'], hclosed, ?_⟩
          intro front part heq hfront hpart
          cases front with
          | nil => exact absurd rfl hfront
          | cons d front =>
            have htail : content' = front ++ part := (List.cons.inj heq).2
            cases front with
            | nil =>
              rw [List.nil_append] at htail
              rw [← htail]
              exact Bool.eq_false_iff.2 hopened
            | cons e front => exact hshortest _ _ htail (List.cons_ne_nil _ _) hpart
  · rintro ⟨back, rfl, hne, hbreak, hclosed, hshortest⟩
    induction content with
    | nil => exact absurd rfl hne
    | cons c content ih =>
      rw [List.mem_cons, not_or] at hbreak
      rw [List.cons_append, shortestContent?, if_neg (Ne.symm hbreak.1)]
      cases content with
      | nil => exact if_pos hclosed
      | cons d content =>
        have hopened := hshortest [c] (d :: content) rfl (List.cons_ne_nil _ _) (List.cons_ne_nil _ _)
        have hlater := ih (List.cons_ne_nil _ _) hbreak.2 fun front part heq hfront hpart =>
          hshortest (c :: front) part (by rw [heq]; rfl) (List.cons_ne_nil _ _) hpart
        rw [if_neg (Bool.eq_false_iff.1 hopened), hlater]
        rfl

/-- On one line the search for an end succeeds if there is any. -/
theorem shortestContent?_isSome {front back : Text} (hbreak : CodePoint.char '\n' ∉ front)
    (hne : front ≠ []) (hclosed : closesCall back = true) :
    (shortestContent? (front ++ back)).isSome = true := by
  induction front with
  | nil => exact absurd rfl hne
  | cons c front ih =>
    rw [List.mem_cons, not_or] at hbreak
    rw [List.cons_append, shortestContent?, if_neg (Ne.symm hbreak.1)]
    split
    · rfl
    · rename_i hopened
      rw [Option.isSome_map]
      refine ih hbreak.2 ?_
      rintro rfl
      exact hopened hclosed

theorem pathCall?_eq_some_iff {opening text path : Text} : pathCall? opening text = some path ↔
    ∃ quote ∈ stringQuotes, ∃ rest, text = opening ++ quote :: rest ∧
      shortestContent? rest = some path := by
  unfold pathCall?
  rw [Option.bind_eq_bind, Option.bind_eq_some_iff]
  constructor
  · rintro ⟨inside, hafter, h⟩
    rw [Text.after?_eq_some_iff] at hafter
    split at h
    · rename_i quote rest
      split at h
      · rename_i hquote
        exact ⟨quote, hquote, rest, hafter, h⟩
      · cases h
    · cases h
  · rintro ⟨quote, hquote, rest, rfl, h⟩
    exact ⟨quote :: rest, Text.after?_eq_some_iff.2 rfl, (if_pos hquote).trans h⟩

/-! ## The literal that a call starts with -/

/-- A command that starts with a call on a literal: the literal is closed by its own quote, the call is
closed at once, and within the literal no quote, except as its first character, has a parenthesis behind
it. -/
structure IsLiteralCall (opening : Text) (quote : CodePoint) (content behind command : Text) : Prop where
  command_eq : command = opening ++ quote :: (content ++ quote :: CodePoint.char ')' :: behind)
  quote_mem : quote ∈ stringQuotes
  ne_nil : content ≠ []
  quote_not_mem : quote ∉ content
  break_not_mem : CodePoint.char '\n' ∉ content
  unclosed : ∀ front part, content = front ++ part → front ≠ [] → closesCall part = false

/-- A quote at the end of a text closes the call only with the parenthesis behind it. -/
theorem closesCall_append {part back : Text} {quote : CodePoint} (hpart : part ≠ [])
    (hquote : quote ≠ ')') : closesCall (part ++ quote :: back) = closesCall part := by
  match part with
  | [] => exact absurd rfl hpart
  | [c] =>
    have hopened : closesCall (c :: quote :: back) = false := by
      rw [Bool.eq_false_iff]
      intro h
      obtain ⟨q, -, rest, heq⟩ := closesCall_eq_true_iff.1 h
      exact hquote (List.cons.inj (List.cons.inj heq).2).1
    exact hopened
  | c :: d :: part =>
    rw [Bool.eq_iff_iff, closesCall_eq_true_iff, closesCall_eq_true_iff]
    simp

theorem ne_paren_of_mem_stringQuotes {quote : CodePoint} (h : quote ∈ stringQuotes) :
    quote ≠ ')' := by
  rintro rfl
  exact absurd h (by decide)

theorem IsLiteralCall.pathCall? {opening content behind command : Text} {quote : CodePoint}
    (h : IsLiteralCall opening quote content behind command) :
    pathCall? opening command = some content := by
  refine pathCall?_eq_some_iff.2 ⟨quote, h.quote_mem, _, h.command_eq, ?_⟩
  refine shortestContent?_eq_some_iff.2 ⟨_, rfl, h.ne_nil, h.break_not_mem,
    closesCall_eq_true_iff.2 ⟨quote, h.quote_mem, behind, rfl⟩, ?_⟩
  intro front part heq hfront hpart
  rw [closesCall_append hpart (ne_paren_of_mem_stringQuotes h.quote_mem)]
  exact h.unclosed front part heq hfront

/-- A literal without quotes in it. -/
theorem IsLiteralCall.of_unquoted {opening content behind : Text} {quote : CodePoint}
    (hquote : quote ∈ stringQuotes) (hne : content ≠ []) (hbreak : CodePoint.char '\n' ∉ content)
    (h : ∀ c ∈ content, c ∉ stringQuotes) : IsLiteralCall opening quote content behind
      (opening ++ quote :: (content ++ quote :: CodePoint.char ')' :: behind)) where
  command_eq := rfl
  quote_mem := hquote
  ne_nil := hne
  quote_not_mem hmem := h quote hmem hquote
  break_not_mem := hbreak
  unclosed front part heq _ := by
    rw [Bool.eq_false_iff]
    intro hclosed
    obtain ⟨q, hq, rest, rfl⟩ := closesCall_eq_true_iff.1 hclosed
    exact h q (by simp [heq]) hq

/-- What is read up to the next quote of the same kind is the literal of the call. -/
theorem isLiteralCall_of_pathCall? {opening path behind command : Text} {quote : CodePoint}
    (hcommand : command = opening ++ quote :: (path ++ quote :: behind))
    (hquote : quote ∈ stringQuotes) (hnot : quote ∉ path)
    (h : pathCall? opening command = some path) :
    ∃ behind, IsLiteralCall opening quote path behind command := by
  obtain ⟨quote', -, rest, heq, hpath⟩ := pathCall?_eq_some_iff.1 h
  rw [hcommand, List.append_cancel_left_eq] at heq
  obtain ⟨rfl, rfl⟩ := List.cons.inj heq
  obtain ⟨back, hback, hne, hbreak, hclosed, hshortest⟩ := shortestContent?_eq_some_iff.1 hpath
  rw [List.append_cancel_left_eq] at hback
  obtain ⟨q, -, behind', hbehind⟩ := closesCall_eq_true_iff.1 hclosed
  obtain ⟨-, rfl⟩ := List.cons.inj (hback.trans hbehind)
  refine ⟨behind', hcommand, hquote, hne, hnot, hbreak, ?_⟩
  intro front part heq hfront
  cases part with
  | nil => rfl
  | cons c part =>
    have hpart := hshortest front (c :: part) heq hfront (List.cons_ne_nil _ _)
    rwa [← hback, closesCall_append (List.cons_ne_nil _ _) (ne_paren_of_mem_stringQuotes hquote)]
      at hpart

/-- Where a path is found on a line that starts with the call and a quote, it is found at the start. -/
theorem pathCall?_of_firstPlace? {opening command rest path : Text} {quote : CodePoint}
    (hcommand : command = opening ++ quote :: rest) (hquote : quote ∈ stringQuotes)
    (hbreak : CodePoint.char '\n' ∉ command)
    (h : firstPlace? (pathCall? opening) command = some path) :
    pathCall? opening command = some path := by
  have hfound : path ∈ allPlaces (pathCall? opening) command := by
    rw [firstPlace?_eq_head?] at h
    exact List.mem_of_head? h
  obtain ⟨part, hpart, hpath⟩ := mem_allPlaces_iff.1 hfound
  obtain ⟨quote', -, rest', rfl, hcontent⟩ := pathCall?_eq_some_iff.1 hpath
  obtain ⟨back, rfl, hne, -, hclosed, -⟩ := shortestContent?_eq_some_iff.1 hcontent
  -- what ends the call that was found also ends the literal at the start, so one is found there
  have hback : back <:+ opening ++ quote' :: (path ++ back) :=
    (List.suffix_append path back).trans ((List.suffix_cons _ _).trans (List.suffix_append _ _))
  have hrest : rest <:+ command :=
    hcommand ▸ (List.suffix_cons quote rest).trans (List.suffix_append opening _)
  have hpos := List.length_pos_of_ne_nil hne
  have hlength := hpart.length_le
  rw [hcommand] at hlength
  simp only [List.length_append, List.length_cons] at hlength
  obtain ⟨front, rfl⟩ := List.suffix_of_suffix_length_le (hback.trans hpart) hrest (by omega)
  have hfront : front ≠ [] := by
    rintro rfl
    rw [List.nil_append] at hlength
    omega
  have hbreak' : CodePoint.char '\n' ∉ front := fun hmem =>
    hbreak (hrest.subset (List.mem_append_left back hmem))
  obtain ⟨path', hpath'⟩ := Option.isSome_iff_exists.1 (shortestContent?_isSome hbreak' hfront hclosed)
  have hhere := pathCall?_eq_some_iff.2 ⟨quote, hquote, front ++ back, hcommand, hpath'⟩
  rw [Query.firstPlace?_of_find hhere] at h
  cases h
  exact hhere

/-! ## Requests -/

/-- The methods that the console reads with. -/
def readMethods : List Text := ["collection", "doc"]

/-- A text starts with one call on the root only. -/
theorem eq_of_opening_append {root a b x y : Text} (ha : a ∈ readMethods) (hb : b ∈ readMethods)
    (h : opening root a ++ x = opening root b ++ y) : a = b := by
  have hcancel : "." ++ a ++ "(" ++ x = "." ++ b ++ "(" ++ y := by
    unfold opening at h
    simpa only [List.append_assoc, List.append_cancel_left_eq] using h
  simp only [readMethods, List.mem_cons, List.not_mem_nil, or_false] at ha hb
  rcases ha with rfl | rfl <;> rcases hb with rfl | rfl
  · rfl
  · cases hcancel
  · cases hcancel
  · rfl

/-- A read of a collection has the path that is found first, and a fetch has the parameters of the whole
line with that path as the collection to fall back to. -/
theorem collectionRequest_with_path {root command path : Text} {limit : Int} {request : ConsoleRequest}
    (h : collectionRequest root command limit = .ok request) (hpath : request.path? = some path) :
    firstPlace? (pathCall? (opening root "collection")) command = some path ∧
      ∀ params, request.params? = some params → Query.parse command path limit = .ok params := by
  unfold collectionRequest at h
  split at h
  · cases h
    cases hpath
  · rename_i found hfound
    split at h
    · cases hparse : Query.parse command found limit with
      | error fault =>
        rw [hparse] at h
        cases h
      | ok params =>
        rw [hparse] at h
        cases h
        cases hpath
        refine ⟨hfound, ?_⟩
        rintro _ ⟨⟩
        exact hparse
    · cases h
      cases hpath
      exact ⟨hfound, fun params hparams => nomatch hparams⟩

theorem documentRequest_with_path {root command path : Text}
    (hpath : (documentRequest root command).path? = some path) :
    firstPlace? (pathCall? (opening root "doc")) command = some path ∧
      (documentRequest root command).params? = none := by
  unfold documentRequest at hpath ⊢
  split at hpath
  · cases hpath
  · rename_i found hfound
    cases hpath
    rw [hfound]
    exact ⟨rfl, rfl⟩

/-- What is asked for with a path: a read with one of the methods, where the line starts with the call
and the path is found at its first place; a fetch is of a collection and has the parameters of the whole
line. -/
theorem request_with_path {line root path : Text} {limit : Int} {request : ConsoleRequest}
    (h : requestOf line limit root = .ok request) (hpath : request.path? = some path) :
    ∃ method ∈ readMethods, opening root method <+: Text.trim line ∧
      firstPlace? (pathCall? (opening root method)) (Text.trim line) = some path ∧
      ∀ params, request.params? = some params →
        method = "collection" ∧ Query.parse (Text.trim line) path limit = .ok params := by
  unfold requestOf at h
  dsimp only at h
  split at h
  · cases h
    cases hpath
  split at h
  · cases h
    cases hpath
  split at h
  · cases h
    cases hpath
  split at h
  · rename_i hstart
    obtain ⟨hfound, hparams⟩ := collectionRequest_with_path h hpath
    exact ⟨"collection", by decide, List.isPrefixOf_iff_prefix.1 hstart, hfound,
      fun params h => ⟨rfl, hparams params h⟩⟩
  split at h
  · rename_i hstart
    cases h
    obtain ⟨hfound, hparams⟩ := documentRequest_with_path hpath
    refine ⟨"doc", by decide, List.isPrefixOf_iff_prefix.1 hstart, hfound, fun params h => ?_⟩
    rw [hparams] at h
    cases h
  · cases h
    cases hpath

/-! ## The path and the parameters -/

/-- The path is the literal that the command starts with, behind a call on the root: what stands between
the quote there and the next quote of the same kind. -/
def IsWritten (root command path : Text) : Prop :=
  ∃ method ∈ readMethods, ∃ quote ∈ stringQuotes, ∃ behind,
    command = opening root method ++ quote :: (path ++ quote :: behind) ∧ quote ∉ path

/-- The collection of the parameters is the path, and their limit is the limit that is told. -/
def AgreesWithParams (request : ConsoleRequest) (path : Text) : Prop :=
  ∀ params, request.params? = some params →
    params.collection = path ∧ request.limit? = some params.limit

/-- The parser does not find another collection than the literal: no quote of any kind stands in it and
the root does not name a collection itself, or no collection is found at all. -/
def IsReadAlike (root command content : Text) : Prop :=
  (∀ c ∈ content, c ∉ literalQuotes) ∧ ¬(".collection" : Text) <:+: root ∨
    firstPlace? Query.collectionCall? command = none

/-- A command that starts with a call on the root, on a literal that the parser reads alike if the request
is a fetch. -/
def StartsWithLiteral (root command : Text) (request : ConsoleRequest) : Prop :=
  ∃ method ∈ readMethods, ∃ quote content behind,
    IsLiteralCall (opening root method) quote content behind command ∧
      (request.params?.isSome = true → IsReadAlike root command content)

theorem literalQuotes_of_stringQuotes {quote : CodePoint} (h : quote ∈ stringQuotes) :
    quote ∈ literalQuotes := List.mem_append_left [Text.backtick] h

/-- Where the parser reads the literal alike, it is the collection of the parameters. -/
theorem collection_of_isReadAlike {root command content behind : Text} {quote : CodePoint}
    {limit : Int} {params : QueryParameters}
    (h : IsLiteralCall (opening root "collection") quote content behind command)
    (halike : IsReadAlike root command content)
    (hparse : Query.parse command content limit = .ok params) : params.collection = content := by
  rw [Query.collection_of_parse hparse]
  rcases halike with ⟨hcontent, hroot⟩ | hnone
  · have hfound := Query.firstPlace?_collectionCall? hroot
      (literalQuotes_of_stringQuotes h.quote_mem) h.ne_nil hcontent behind
    have hcommand : command = root ++ callText "collection" (quote :: content) ++
        quote :: CodePoint.char ')' :: behind := by
      rw [h.command_eq]
      simp [opening, callText]
    rw [hcommand, hfound]
    rfl
  · rw [hnone]
    rfl

section

variable {line root path : Text} {limit : Int} {request : ConsoleRequest}

theorem isWritten_of_startsWithLiteral (h : requestOf line limit root = .ok request)
    (hpath : request.path? = some path) (hstart : StartsWithLiteral root (Text.trim line) request) :
    IsWritten root (Text.trim line) path ∧ AgreesWithParams request path := by
  obtain ⟨method, hmethod, quote, content, behind, hliteral, halike⟩ := hstart
  obtain ⟨method', hmethod', ⟨rest, hrest⟩, hfound, hparams⟩ := request_with_path h hpath
  have hmethods : method' = method :=
    eq_of_opening_append hmethod' hmethod (hrest.trans hliteral.command_eq)
  rw [hmethods, Query.firstPlace?_of_find hliteral.pathCall?] at hfound
  cases hfound
  refine ⟨⟨method, hmethod, quote, hliteral.quote_mem, _, hliteral.command_eq,
    hliteral.quote_not_mem⟩, ?_⟩
  intro params hrequest
  obtain ⟨hcollection, hparse⟩ := hparams params hrequest
  rw [← hmethods, hcollection] at hliteral
  refine ⟨collection_of_isReadAlike hliteral (halike ?_) hparse, ?_⟩
  · rw [hrequest]
    rfl
  · exact congrArg (Option.map (·.limit)) hrequest

theorem startsWithLiteral_of_isWritten (h : requestOf line limit root = .ok request)
    (hpath : request.path? = some path) (hbreak : CodePoint.char '\n' ∉ Text.trim line)
    (hroot : ¬(".collection" : Text) <:+: root) (hwritten : IsWritten root (Text.trim line) path)
    (hagrees : AgreesWithParams request path) : StartsWithLiteral root (Text.trim line) request := by
  obtain ⟨method, hmethod, quote, hquote, behind, hcommand, hnot⟩ := hwritten
  obtain ⟨method', hmethod', ⟨rest, hrest⟩, hfound, hparams⟩ := request_with_path h hpath
  have hmethods : method' = method := eq_of_opening_append hmethod' hmethod (hrest.trans hcommand)
  rw [hmethods] at hfound
  obtain ⟨behind', hliteral⟩ := isLiteralCall_of_pathCall? hcommand hquote hnot
    (pathCall?_of_firstPlace? hcommand hquote hbreak hfound)
  refine ⟨method, hmethod, quote, path, behind', hliteral, fun hsome => ?_⟩
  obtain ⟨params, hrequest⟩ := Option.isSome_iff_exists.1 hsome
  have hcollection := Query.collection_of_parse (hparams params hrequest).2
  rw [(hagrees params hrequest).1] at hcollection
  cases hname : firstPlace? Query.collectionCall? (Text.trim line) with
  | none => exact .inr hname
  | some name =>
    rw [hname, Option.getD_some] at hcollection
    rw [hcollection]
    exact .inl ⟨Query.unquoted_of_firstPlace?_collectionCall? hname, hroot⟩

/-- The path of a request is the literal that the line starts with, and the parameters agree with it, if
that literal is closed by its own quote and the parenthesis at once, ends no call before, and is read alike
by the parser; and on one line and with a root that names no collection, only then. -/
theorem path_isLiteral_iff (h : requestOf line limit root = .ok request)
    (hpath : request.path? = some path) :
    (StartsWithLiteral root (Text.trim line) request →
      IsWritten root (Text.trim line) path ∧ AgreesWithParams request path) ∧
    (CodePoint.char '\n' ∉ Text.trim line → ¬(".collection" : Text) <:+: root →
      IsWritten root (Text.trim line) path ∧ AgreesWithParams request path →
        StartsWithLiteral root (Text.trim line) request) :=
  ⟨isWritten_of_startsWithLiteral h hpath, fun hbreak hroot hclaim =>
    startsWithLiteral_of_isWritten h hpath hbreak hroot hclaim.1 hclaim.2⟩

end

/-- The collection of a fetch with blanks around the line. -/
theorem path_isLiteral_fetch :
    let line : Text := " db.collection('users').limit(10).get() "
    ∃ params, requestOf line 50 "db" = .ok (.fetchCollection "users" params) ∧
      IsWritten "db" (Text.trim line) "users" ∧
        AgreesWithParams (.fetchCollection "users" params) "users" := by
  intro line
  let params : QueryParameters := ⟨"users", .int 10, [], [], none⟩
  have h : requestOf line 50 "db" = .ok (.fetchCollection "users" params) := rfl
  have hliteral : IsLiteralCall (opening "db" "collection") Text.singleQuote "users" ".limit(10).get()"
      (Text.trim line) :=
    .of_unquoted (by decide) (by decide) (by decide) (by decide)
  have halike : IsReadAlike "db" (Text.trim line) "users" := .inl ⟨by decide, by decide⟩
  have hstart : StartsWithLiteral "db" (Text.trim line) (.fetchCollection "users" params) :=
    ⟨"collection", by decide, Text.singleQuote, "users", _, hliteral, fun _ => halike⟩
  exact ⟨params, h, (path_isLiteral_iff h rfl).1 hstart⟩

/-- With a blank in front of the parenthesis the path goes on up to the next quote that a parenthesis
follows, while the collection of the parameters is the literal. -/
theorem path_beyond_literal :
    let line : Text := "db.collection(\x22users\x22 ).select(\x22a\x22).get()"
    let path : Text := "users\x22 ).select(\x22a"
    requestOf line 50 "db" = .ok (.fetchCollection path ⟨"users", .int 50, ["a"], [], none⟩) ∧
      ¬IsWritten "db" (Text.trim line) path := by
  intro line path
  refine ⟨rfl, ?_⟩
  rintro ⟨method, hmethod, quote, -, behind, hcommand, hnot⟩
  have hline : Text.trim line = opening "db" "collection" ++ Text.doubleQuote :: line.drop 15 := rfl
  have hsame := eq_of_opening_append (by decide) hmethod (hline.symm.trans hcommand)
  rw [← hsame, hline, List.append_cancel_left_eq] at hcommand
  obtain ⟨rfl, -⟩ := List.cons.inj hcommand
  exact hnot (by decide)

end Console

end FluentQuery
