import Overlay.Proofs.JsonReading

/-! Where documents end. A number that is cut off is a number still, so a document may go on where a
shorter one ended. An object and an array may not: what closes them is an octet of their own, and
until that octet is read the reader of the tree has a value open. A cut can fall anywhere, inside a
key, an escape, a character or a number, so the argument is about where the two readers stand at the
cut and not about what was written there. -/
namespace Overlay.Json

/-- Documents that are closed by an octet of their own. -/
inductive Compound : Json → Prop where
  | array (items : List Json) : Compound (.array items)
  | object (members : List (List Piece × Json)) : Compound (.object members)

/-! ### The reader of tokens at a cut -/

/-- Tokens collected before play no part in reading on. -/
theorem tokensFrom_done (inside : Inside) (done : List Token) (bytes : Bytes) :
    tokensFrom inside done bytes = (tokensFrom inside [] bytes).map (done.reverse ++ ·) := by
  induction bytes generalizing inside done with
  | nil => cases finished : finish? inside <;> simp [tokensFrom, finished]
  | cons b rest ih =>
    rw [tokensFrom, tokensFrom]
    cases step? inside b with
    | none => rfl
    | some next =>
      obtain ⟨tokens, after⟩ := next
      dsimp only
      rw [ih after (tokens.reverse ++ done), ih after (tokens.reverse ++ [])]
      cases tokensFrom after [] rest <;> simp

/-- Octets that can be read to their end can be read up to any place. -/
theorem reads_of_append {inside : Inside} {done whole : List Token} {bytes rest : Bytes}
    (read : tokensFrom inside done (bytes ++ rest) = some whole) :
    ∃ tokens after, Reads inside bytes tokens after := by
  induction bytes generalizing inside done with
  | nil => exact ⟨[], inside, reads_nothing inside⟩
  | cons b bytes ih =>
    rw [List.cons_append, tokensFrom] at read
    cases stepped : step? inside b with
    | none =>
      rw [stepped] at read
      cases read
    | some next =>
      obtain ⟨tokens, after⟩ := next
      rw [stepped] at read
      obtain ⟨later, last, reads⟩ := ih read
      exact ⟨tokens ++ later, last, (reads_step stepped).append reads⟩

/-- The document that a token is by itself, if nothing of its own closes it. -/
def scalar? : Token → Option Json
  | .null => some .null
  | .boolean b => some (.boolean b)
  | .number characters => some (.number characters)
  | _ => none

theorem not_compound_of_scalar {token : Token} {value : Json} (scalar : scalar? token = some value) :
    ¬ Compound value := by
  rintro (_ | _) <;> cases token <;> simp [scalar?] at scalar

/-- Inside a number or a word: a token ends here if the octets do, and goes on if they do not. -/
def Inside.unfinished : Inside → Bool
  | .number _ | .word _ => true
  | _ => false

theorem finish?_unfinished {inside : Inside} {last : List Token}
    (unfinished : inside.unfinished = true) (finished : finish? inside = some last) :
    ∃ token value, last = [token] ∧ scalar? token = some value := by
  cases inside with
  | number characters =>
    simp only [finish?, Option.ite_none_right_eq_some, Option.some.injEq] at finished
    exact ⟨_, _, finished.2.symm, rfl⟩
  | word characters =>
    obtain ⟨token, known, rfl⟩ := Option.map_eq_some_iff.mp finished
    refine ⟨token, ?_⟩
    unfold word? at known
    split at known
    · cases known
      exact ⟨_, rfl, rfl⟩
    · split at known
      · cases known
        exact ⟨_, rfl, rfl⟩
      · split at known
        · cases known
          exact ⟨_, rfl, rfl⟩
        · cases known
  | between => cases unfinished
  | text => cases unfinished
  | escape => cases unfinished
  | unit => cases unfinished

/-- A number or a word goes on with an octet, or it ends in front of what begins there. -/
theorem step?_unfinished {inside after : Inside} {b : UInt8} {tokens : List Token}
    (unfinished : inside.unfinished = true) (stepped : step? inside b = some (tokens, after)) :
    (tokens = [] ∧ after.unfinished = true) ∨
      ∃ last next, finish? inside = some last ∧ tokens = last ++ next := by
  have ends (ended : ((finish? inside).bind fun last => (begin? b).bind fun next =>
      some (last ++ next.1, next.2)) = some (tokens, after)) :
      ∃ last next, finish? inside = some last ∧ tokens = last ++ next := by
    obtain ⟨last, finished, begun⟩ := Option.bind_eq_some_iff.mp ended
    obtain ⟨next, -, same⟩ := Option.bind_eq_some_iff.mp begun
    cases same
    exact ⟨last, next.1, finished, rfl⟩
  cases inside with
  | number characters =>
    rw [step?] at stepped
    split at stepped
    · cases stepped
      exact .inl ⟨rfl, rfl⟩
    · exact .inr (ends stepped)
  | word characters =>
    rw [step?] at stepped
    split at stepped
    · cases stepped
      exact .inl ⟨rfl, rfl⟩
    · exact .inr (ends stepped)
  | between => cases unfinished
  | text => cases unfinished
  | escape => cases unfinished
  | unit => cases unfinished

/-- What is read on from inside a number or a word begins with such a token. -/
theorem tokensFrom_unfinished {inside : Inside} {bytes : Bytes} {tokens : List Token}
    (unfinished : inside.unfinished = true) (read : tokensFrom inside [] bytes = some tokens) :
    ∃ token value later, tokens = token :: later ∧ scalar? token = some value := by
  induction bytes generalizing inside with
  | nil =>
    obtain ⟨last, finished, rfl⟩ := Option.map_eq_some_iff.mp read
    obtain ⟨token, value, rfl, scalar⟩ := finish?_unfinished unfinished finished
    exact ⟨token, value, [], rfl, scalar⟩
  | cons b rest ih =>
    rw [tokensFrom] at read
    cases stepped : step? inside b with
    | none =>
      rw [stepped] at read
      cases read
    | some next =>
      obtain ⟨now, after⟩ := next
      rw [stepped] at read
      dsimp only at read
      rcases step?_unfinished unfinished stepped with ⟨rfl, still⟩ | ⟨last, next, finished, rfl⟩
      · exact ih still read
      · obtain ⟨token, value, rfl, scalar⟩ := finish?_unfinished unfinished finished
        rw [tokensFrom_done] at read
        obtain ⟨later, -, rfl⟩ := Option.map_eq_some_iff.mp read
        exact ⟨token, value, next ++ later, by simp, scalar⟩

private theorem begin?_blank {b : UInt8} (begun : begin? b = some ([], .between)) :
    isSpace b = true := by
  unfold begin? at begun
  split at begun
  iterate 7 · cases begun
  split at begun
  · assumption
  · split at begun
    · cases begun
    · split at begun <;> cases begun

/-- Only blanks between tokens leave the reader there without a token. -/
theorem step?_blank {inside : Inside} {b : UInt8} (stepped : step? inside b = some ([], .between)) :
    inside = .between ∧ isSpace b = true := by
  cases inside with
  | between => exact ⟨rfl, begin?_blank stepped⟩
  | text pieces =>
    simp only [step?] at stepped
    split at stepped
    · simp at stepped
    · split at stepped
      · simp at stepped
      · split at stepped <;> simp at stepped
  | escape pieces =>
    simp only [step?] at stepped
    split at stepped
    · simp at stepped
    · simp at stepped
  | unit pieces missing value =>
    obtain ⟨digit, -, stepped⟩ := Option.bind_eq_some_iff.mp stepped
    split at stepped <;> simp at stepped
  | number characters =>
    rcases step?_unfinished rfl stepped with ⟨-, still⟩ | ⟨last, next, finished, none⟩
    · cases still
    · obtain ⟨token, value, rfl, -⟩ := finish?_unfinished rfl finished
      simp at none
  | word characters =>
    rcases step?_unfinished rfl stepped with ⟨-, still⟩ | ⟨last, next, finished, none⟩
    · cases still
    · obtain ⟨token, value, rfl, -⟩ := finish?_unfinished rfl finished
      simp at none

/-- Octets without a token are blank. -/
theorem blank_of_no_tokens {inside : Inside} {bytes : Bytes}
    (read : tokensFrom inside [] bytes = some []) : inside = .between ∧ bytes.all isSpace = true := by
  induction bytes generalizing inside with
  | nil =>
    obtain ⟨last, finished, none⟩ := Option.map_eq_some_iff.mp read
    rw [List.reverse_nil, List.nil_append] at none
    subst none
    cases inside with
    | between => exact ⟨rfl, rfl⟩
    | number => exact absurd (finish?_unfinished rfl finished) (by simp)
    | word => exact absurd (finish?_unfinished rfl finished) (by simp)
    | text => cases finished
    | escape => cases finished
    | unit => cases finished
  | cons b rest ih =>
    rw [tokensFrom] at read
    cases stepped : step? inside b with
    | none =>
      rw [stepped] at read
      cases read
    | some next =>
      obtain ⟨tokens, after⟩ := next
      rw [stepped] at read
      dsimp only at read
      rw [tokensFrom_done] at read
      obtain ⟨later, readOn, none⟩ := Option.map_eq_some_iff.mp read
      have noneNow : tokens = [] := by simpa using (List.append_eq_nil_iff.mp none).1
      have noneLater : later = [] := (List.append_eq_nil_iff.mp none).2
      subst noneNow noneLater
      obtain ⟨rfl, blanks⟩ := ih readOn
      obtain ⟨rfl, blank⟩ := step?_blank stepped
      exact ⟨rfl, by simp [blank, blanks]⟩

/-! ### The reader of the tree at a cut -/

/-- A reader with a result expects nothing more. -/
def Reader.Settled (reader : Reader) : Prop :=
  reader.result ≠ none → reader.expected = .nothing

theorem Reader.close_settled (reader : Reader) (value : Json) : (reader.close value).Settled := by
  unfold Reader.close
  split
  · exact fun _ => rfl
  · exact fun some => absurd rfl some
  · exact fun some => absurd rfl some

theorem Reader.step?_nothing {reader : Reader} (complete : reader.expected = .nothing)
    (token : Token) : reader.step? token = none := by
  unfold Reader.step?
  rw [complete]

/-- A step closes a value, or it leaves the result as it was. -/
inductive Reader.Goes (reader : Reader) : Reader → Prop where
  | closed (opened : Reader) (value : Json) : Goes reader (opened.close value)
  | waiting {after : Reader} (same : after.result = reader.result) : Goes reader after

theorem Reader.begin?_goes {reader after : Reader} {token : Token}
    (begun : reader.begin? token = some after) : reader.Goes after := by
  cases token <;> cases begun
  case null => exact .closed reader .null
  case boolean b => exact .closed reader (.boolean b)
  case number characters => exact .closed reader (.number characters)
  case text pieces => exact .closed reader (.text pieces)
  case openBracket => exact .waiting rfl
  case openBrace => exact .waiting rfl

theorem Reader.closeArray?_goes {reader after : Reader}
    (closed : reader.closeArray? = some after) : reader.Goes after := by
  unfold Reader.closeArray? at closed
  split at closed
  · cases closed
    exact .closed _ _
  · cases closed

theorem Reader.step?_goes {reader after : Reader} {token : Token}
    (stepped : reader.step? token = some after) : reader.Goes after := by
  unfold Reader.step? at stepped
  split at stepped
  · exact begin?_goes stepped
  · exact closeArray?_goes stepped
  · exact begin?_goes stepped
  · cases stepped
    exact .closed _ _
  · cases stepped
    exact .waiting rfl
  · cases stepped
    exact .waiting rfl
  · cases stepped
    exact .waiting rfl
  · exact closeArray?_goes stepped
  · split at stepped
    · cases stepped
      exact .closed _ _
    · cases stepped
  · split at stepped
    · cases stepped
      exact .waiting rfl
    · cases stepped
      exact .waiting rfl
    · cases stepped
  · cases stepped

/-- A reader that is settled stays so, because it takes a token only while there is no result. -/
theorem Reader.step?_settled {reader after : Reader} {token : Token} (settled : reader.Settled)
    (stepped : reader.step? token = some after) : after.Settled := by
  cases Reader.step?_goes stepped with
  | closed opened value => exact opened.close_settled value
  | waiting same =>
    intro some
    rw [reader.step?_nothing (settled (same ▸ some))] at stepped
    cases stepped

theorem Reader.run?_settled {reader after : Reader} {tokens : List Token} (settled : reader.Settled)
    (ran : reader.run? tokens = some after) : after.Settled := by
  induction tokens generalizing reader with
  | nil =>
    cases ran
    exact settled
  | cons token rest ih =>
    obtain ⟨next, stepped, ran⟩ := Option.bind_eq_some_iff.mp ran
    exact ih (reader.step?_settled settled stepped) ran

theorem Reader.run?_append (reader : Reader) (first second : List Token) :
    reader.run? (first ++ second) = (reader.run? first).bind (·.run? second) := by
  induction first generalizing reader with
  | nil => rfl
  | cons token rest ih =>
    rw [List.cons_append, Reader.run?, Reader.run?]
    cases reader.step? token with
    | none => rfl
    | some next => exact ih next

/-- A reader that expects nothing more takes no further token. -/
theorem Reader.run?_nothing {reader after : Reader} {tokens : List Token}
    (complete : reader.expected = .nothing) (ran : reader.run? tokens = some after) :
    tokens = [] := by
  cases tokens with
  | nil => rfl
  | cons token rest =>
    rw [Reader.run?, reader.step?_nothing complete] at ran
    cases ran

/-- A number or a word, where it is taken, is a value that ends there. -/
theorem Reader.step?_scalar {reader after : Reader} {token : Token} {value : Json}
    (scalar : scalar? token = some value) (stepped : reader.step? token = some after) :
    after = reader.close value := by
  have begun : reader.begin? token = some (reader.close value) := by
    cases token <;> cases scalar <;> rfl
  have taken : reader.step? token = reader.begin? token ∨ reader.step? token = none := by
    cases expected : reader.expected <;> cases token <;> cases scalar <;>
      simp [Reader.step?, expected]
  rcases taken with same | none
  · rw [same, begun] at stepped
    exact (Option.some_inj.mp stepped).symm
  · rw [none] at stepped
    cases stepped

theorem Reader.close_result {reader : Reader} {value document : Json}
    (result : (reader.close value).result = some document) : reader.pending = [] := by
  unfold Reader.close at result
  split at result
  · assumption
  · cases result
  · cases result

/-- Where one number or word makes a document, any other one is a document, too, and all of it. -/
theorem Reader.run?_scalar {reader made final : Reader} {token other : Token}
    {later : List Token} {value document : Json} (scalar : scalar? token ≠ none)
    (ran : reader.run? [token] = some made) (ends : made.result ≠ none)
    (otherScalar : scalar? other = some value) (ranOther : reader.run? (other :: later) = some final)
    (result : final.result = some document) : document = value := by
  have alone : reader.pending = [] := by
    obtain ⟨short, scalar⟩ := Option.ne_none_iff_exists'.mp scalar
    obtain ⟨ending, ends⟩ := Option.ne_none_iff_exists'.mp ends
    obtain ⟨closed, stepped, same⟩ := Option.bind_eq_some_iff.mp ran
    cases same
    rw [Reader.step?_scalar scalar stepped] at ends
    exact Reader.close_result ends
  obtain ⟨closed, stepped, ranOn⟩ := Option.bind_eq_some_iff.mp ranOther
  have shape : closed = ⟨[], .nothing, some value⟩ := by
    rw [Reader.step?_scalar otherScalar stepped, Reader.close, alone]
  subst shape
  have nothing := Reader.run?_nothing rfl ranOn
  subst nothing
  cases ranOn
  cases result
  rfl

/-! ### Documents cut off -/

theorem tokens?_of_cut {bytes : Bytes} {before : List Token} {inside : Inside}
    (reads : Reads .between bytes before inside) :
    tokens? bytes = (finish? inside).map (before ++ ·) := by
  have same := reads [] []
  rw [List.append_nil, List.append_nil] at same
  rw [tokens?, same, tokensFrom, List.reverse_reverse]

/-- A document that something of its own closes is not over before its last octet, blanks apart:
what comes before a cut is no document at all. -/
theorem parse?_torn {read rest : Bytes} {document : Json}
    (whole : parse? (read ++ rest) = some document) (compound : Compound document)
    (more : rest.all isSpace = false) : parse? read = none := by
  obtain ⟨tokens, tokenized, made⟩ := Option.bind_eq_some_iff.mp whole
  obtain ⟨before, inside, reads⟩ := reads_of_append tokenized
  rw [tokens?, reads, List.append_nil, tokensFrom_done, List.reverse_reverse] at tokenized
  obtain ⟨later, readOn, rfl⟩ := Option.map_eq_some_iff.mp tokenized
  obtain ⟨final, ran, result⟩ := Option.bind_eq_some_iff.mp made
  rw [Reader.run?_append] at ran
  obtain ⟨atCut, ranBefore, ranLater⟩ := Option.bind_eq_some_iff.mp ran
  rw [parse?, tokens?_of_cut reads]
  cases finished : finish? inside with
  | none => rfl
  | some last =>
    rw [Option.map_some, Option.bind_some, ofTokens?, Reader.run?_append, ranBefore,
      Option.bind_some, Option.bind_eq_none_iff]
    intro reader ended
    by_cases waits : reader.result = none
    · exact waits
    exfalso
    by_cases unfinished : inside.unfinished = true
    · -- A number or a word that is all there is before the cut is all there is with the rest.
      obtain ⟨token, short, rfl, scalar⟩ := finish?_unfinished unfinished finished
      obtain ⟨other, long, others, rfl, otherScalar⟩ := tokensFrom_unfinished unfinished readOn
      have same : document = long :=
        Reader.run?_scalar (by simp [scalar]) ended waits otherScalar ranLater result
      exact not_compound_of_scalar otherScalar (same ▸ compound)
    · -- Between tokens the document is complete, and the rest has no token.
      have between : last = [] := by
        cases inside with
        | between =>
          cases finished
          rfl
        | number => exact absurd rfl unfinished
        | word => exact absurd rfl unfinished
        | text => cases finished
        | escape => cases finished
        | unit => cases finished
      subst between
      cases ended
      have settled : atCut.Settled := Reader.run?_settled (fun some => absurd rfl some) ranBefore
      have none := Reader.run?_nothing (settled waits) ranLater
      subst none
      rw [(blank_of_no_tokens readOn).2] at more
      cases more

end Overlay.Json
