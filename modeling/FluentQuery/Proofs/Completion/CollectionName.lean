/-
  Accepting the name of a collection. In a call `.collection` whose literal is closed behind the cursor, a
  completion replaces what is typed in the literal by its own text without quotes
  (`applyHere_call_literal`), whatever quotes it was offered in; and the parser finds the name where it was
  put (`firstPlace?_collectionCall?`). `accept_collection_name`: so the name is the collection of the
  edited expression, exactly if the rest of it has no integer that is too long to be read.
-/
import FluentQuery.Proofs.Completion.LiteralContent
import FluentQuery.Proofs.Completion.SuppliedKinds
import FluentQuery.Proofs.Completion.TypedCall
import FluentQuery.Proofs.Query.Clauses

namespace FluentQuery

namespace Edit

/-- Accepting a completion in the literal of a call replaces what is typed there, with the cursor right
behind it. -/
theorem applyHere_call_literal {name earlier content : Text} {quote : CodePoint}
    (hname : ∀ c ∈ name, Text.isIdentChar c = true)
    (hearlier : openLiteral stringQuotes (Text.lastLine earlier) = none) (h : IsTyped quote content)
    (rest : Text) (c : Completion) :
    applyHere (earlier ++ callText name (quote :: content) ++ quote :: rest)
        (earlier ++ callText name (quote :: content)).length c =
      ⟨earlier ++ callText name (quote :: withoutQuotes stringQuotes c.insertedText) ++ quote :: rest,
        (earlier ++
          callText name (quote :: withoutQuotes stringQuotes c.insertedText)).length⟩ := by
  have hnameBreak : CodePoint.char '\n' ∉ name := fun hmem =>
    absurd (hname _ hmem) (by decide)
  have hbreak : CodePoint.char '\n' ∉ callText name [] := by
    simp [callText, hnameBreak]
  have hline : Text.lastLine (earlier ++ callText name []) = Text.lastLine earlier ++ callText name [] :=
    Text.behindLast_append_of_not_mem hbreak earlier
  have hopen : openLiteral stringQuotes (Text.lastLine (earlier ++ callText name [])) = none := by
    rw [hline, openLiteral_callText name _ hname, hearlier]
  have hsplit (text : Text) : earlier ++ callText name [] ++ quote :: text =
      earlier ++ callText name (quote :: text) := by
    rw [List.append_assoc, ← callText_append, List.nil_append]
  have happly := applyHere_in_literal hopen (escapedBehind_callText name earlier) h rest c
  rwa [hsplit, hsplit] at happly

/-- The quotes around a text are taken off again. -/
theorem withoutQuotes_quoted {quotes : List CodePoint} {quote : CodePoint} (h : quote ∈ quotes)
    (text : Text) : withoutQuotes quotes (quote :: text ++ [quote]) = text := by
  unfold withoutQuotes
  rw [List.cons_append, literalContent?_quoted h]

end Edit

/-! ## What the parser makes of it -/

namespace Query

/-- The parameters are read with the collection that is found, exactly if no integer is too long. -/
theorem exists_parse_iff {text name : Text} (h : firstPlace? collectionCall? text = some name)
    (collection : Text) (limit : Int) :
    (∃ params, parse text collection limit = .ok params ∧ params.collection = name) ↔
      ¬HasLongInteger text limit := by
  rw [← (parse_refusedIff text collection limit).exists_ok_iff]
  refine exists_congr fun params => and_iff_left_of_imp fun hparams => ?_
  rw [collection_of_parse hparams, h, Option.getD_some]

end Query

namespace Edit

section

variable {earlier typed name : Text} {quote : CodePoint}

/-- No literal is open where no quote stands. -/
theorem openLiteral_lastLine (h : ∀ c ∈ earlier, c ∉ stringQuotes) :
    openLiteral stringQuotes (Text.lastLine earlier) = none := by
  have hline : openLiteral stringQuotes ([] ++ Text.lastLine earlier) = openLiteral stringQuotes [] :=
    openLiteral_append_of_not_mem fun c hc => h c ((Text.lastLine_suffix earlier).subset hc)
  exact hline

/-- Accepting the name of a collection in the literal of a call `.collection` puts the name between its
quotes and the cursor behind it, and the name is the collection of the expression then, exactly if no
integer in the expression is too long to be read. -/
theorem accept_collection_name (hearlier : ∀ c ∈ earlier, c ∉ stringQuotes)
    (hcall : ¬(".collection" : Text) <:+: earlier) (htyped : IsTyped quote typed)
    (hne : name ≠ []) (hname : ∀ c ∈ name, c ∉ literalQuotes) {c : Completion} {path : Text}
    {fields collections : List Text} {root : Text} {situation : Situation}
    (hoffered : c ∈ Supply.editor path fields collections root situation ∨
      c ∈ Supply.console collections situation)
    (hkind : c.kind = some .collection) (htail : c.trigger.tail = name) (later : Text) :
    let upTo (content : Text) := earlier ++ callText "collection" (quote :: content)
    let behind := quote :: CodePoint.char ')' :: later
    applyHere (upTo typed ++ behind) (upTo typed).length c =
        ⟨upTo name ++ behind, (upTo name).length⟩ ∧
      ∀ collection limit,
        (∃ params, Query.parse (upTo name ++ behind) collection limit = .ok params ∧
          params.collection = name) ↔ ¬Query.HasLongInteger (upTo name ++ behind) limit := by
  intro upTo behind
  obtain ⟨quote', hquote', name', description, priority, hasFullForm, rfl⟩ :=
    Supply.isCollectionName_of_kind hoffered hkind
  have hinserted : withoutQuotes stringQuotes (Supply.quotedWith quote' name' .collection description
      priority hasFullForm).insertedText = name := by
    rw [← htail]
    exact withoutQuotes_quoted hquote' name'
  have happly := applyHere_call_literal (isIdentChar_method "collection" (by decide))
    (openLiteral_lastLine hearlier) htyped (CodePoint.char ')' :: later)
    (Supply.quotedWith quote' name' .collection description priority hasFullForm)
  rw [hinserted] at happly
  refine ⟨happly, ?_⟩
  intro collection limit
  have hquote : quote ∈ literalQuotes := List.mem_append_left [Text.backtick] htyped.quote_mem
  exact Query.exists_parse_iff
    (Query.firstPlace?_collectionCall? hcall hquote hne hname later) collection limit

end

/-- The console offers the name in double quotes, and it is accepted in single quotes. -/
theorem accept_collection_name_other_quotes :
    let c := Supply.quotedWith Text.doubleQuote "users" .collection "Collection: users" 0 false
    applyHere ("db.collection('us').limit(10)" : String) 17 c =
        ⟨("db.collection('users').limit(10)" : String), 20⟩ ∧
      ∃ params, Query.parse ("db.collection('users').limit(10)" : String) [] 50 = .ok params ∧
        params.collection = ("users" : String) := by
  intro c
  let situation : Situation := ⟨false, ("'us" : String), true, false, false, some ⟨"collection", 0⟩⟩
  have hearlier : ∀ c ∈ (("db" : String) : Text), c ∉ stringQuotes := by decide
  have htyped : IsTyped Text.singleQuote ("us" : String) :=
    ⟨by decide, by decide, by decide, by decide⟩
  have hne : (("users" : String) : Text) ≠ [] := by decide
  have hname : ∀ c ∈ (("users" : String) : Text), c ∉ literalQuotes := by decide
  have hoffered : c ∈ Supply.editor [] [] [("users" : String)] [] situation ∨
      c ∈ Supply.console [("users" : String)] situation := .inr (by decide)
  have hshort : ¬Query.HasLongInteger ("db.collection('users').limit(10)" : String) 50 :=
    (Query.limitAndConditions_refusedIff _ 50).not_of_ok (a := (10, [])) rfl
  have hkind : c.kind = some .collection := rfl
  have htail : c.trigger.tail = ("users" : String) := rfl
  have haccept := accept_collection_name hearlier (by decide) htyped hne hname hoffered hkind htail
    (".limit(10)" : String)
  exact ⟨haccept.1, (haccept.2 [] 50).2 hshort⟩

/-- Behind the collection the digits of a limit are found. -/
theorem firstLimit_behind_collection {digits : Text} (h : ∀ c ∈ digits, Text.isDecimal c = true)
    (hne : digits ≠ []) : firstPlace? Query.limitCall?
      (callText "collection" (Text.singleQuote :: ("a" : String)) ++
        Text.singleQuote :: ')' :: (".limit(" ++ digits ++ ")")) = some digits :=
  Query.firstLimit_of_digits h hne

/-- The name is put into the literal, but behind it stands a limit of 4301 digits, and so the expression
is refused. -/
theorem accept_collection_name_long_limit :
    let c := Supply.quotedWith Text.singleQuote "a" .collection "Collection: a" 0 false
    let upTo (content : Text) := callText "collection" (Text.singleQuote :: content)
    let behind : Text := Text.singleQuote :: ')' :: (".limit(" ++ Text.filled 4301 '9' ++ ")")
    c ∈ Supply.console [("a" : String)]
        ⟨false, [Text.singleQuote], true, false, false, some ⟨"collection", 0⟩⟩ ∧
      applyHere (upTo [] ++ behind) (upTo []).length c =
        ⟨upTo ("a" : String) ++ behind, (upTo ("a" : String)).length⟩ ∧
      Query.parse (upTo ("a" : String) ++ behind) [] 50 = .error .tooManyDigits := by
  intro c upTo behind
  have htyped : IsTyped Text.singleQuote [] := ⟨by decide, by decide, by decide, by decide⟩
  have hline : openLiteral stringQuotes (Text.lastLine []) = none := rfl
  have hinserted : withoutQuotes stringQuotes c.insertedText = ("a" : String) := by decide
  have happly := applyHere_call_literal (isIdentChar_method "collection" (by decide)) hline htyped
    (')' :: (".limit(" ++ Text.filled 4301 '9' ++ ")")) c
  rw [hinserted] at happly
  have hdigits : ∀ c ∈ Text.filled 4301 '9', Text.isDecimal c = true := by
    have hnine : Text.isDecimal '9' = true := by decide
    exact fun c hc => List.eq_of_mem_replicate hc ▸ hnine
  have hlong : Decimal.maxDigits < (Text.filled 4301 '9').length := by
    rw [Text.filled, List.length_replicate]
    decide
  have hne : Text.filled 4301 '9' ≠ [] := List.ne_nil_of_length_pos (Nat.zero_lt_of_lt hlong)
  have hlimit : firstPlace? Query.limitCall? (upTo ("a" : String) ++ behind) =
      some (Text.filled 4301 '9') := firstLimit_behind_collection hdigits hne
  have hrefused : Query.limitAndConditions (upTo ("a" : String) ++ behind) 50 = .error .tooManyDigits :=
    (Query.limitAndConditions_refusedIff _ 50 _).2 ⟨rfl, .firstLimit hlimit hlong⟩
  refine ⟨by decide, happly, ?_⟩
  rw [Query.parse_eq, hrefused]
  rfl

end Edit

end FluentQuery
