import HandHistory.Proofs.Games

/-!
# Two runs side by side

A reading is run twice, from sessions that differ in their cursors only. Most parts of a
reading never look at the cursor and leave it where it is (`Blind`); they give the same
answer twice, and the sessions still differ in their cursors only. For the parts that do
look, `Together` says what has to be known of both cursors for that to happen, and what is
known of them afterwards.
-/

namespace HandHistory

namespace Reading

variable {α β : Type}

/-! ## Readings that do not look at the cursor -/

/-- The reading gives the same from every place of the cursor, and does not move it. -/
def Blind (x : Reading α) : Prop :=
  ∀ (session : Session) (cursor : Cursor), x.runFrom { session with cursor } =
    ((x.runFrom session).1, { (x.runFrom session).2 with cursor })

theorem blind_pure (a : α) : Blind (pure a) := fun _ _ => rfl

theorem blind_throw (e : ParseError) : Blind (throw e : Reading α) := fun _ _ => rfl

theorem Blind.bind {x : Reading α} {f : α → Reading β} (hx : Blind x) (hf : ∀ a, Blind (f a)) :
    Blind (x >>= f) := by
  intro session cursor
  rw [runFrom_bind, runFrom_bind, hx session cursor]
  rcases x.runFrom session with ⟨e | a, between⟩
  · rfl
  · exact hf a between cursor

theorem blind_record (events : List Event) : Blind (record events) := fun _ _ => rfl

theorem blind_ofModel (file : Text) (result : Except ModelError α) :
    Blind (ofModel file result) := by
  cases result with
  | ok a => exact blind_pure a
  | error e => exact blind_throw _

theorem blind_enrol (file name : Text) : Blind (enrol file name) := by
  intro session cursor
  rw [runFrom_enrol, runFrom_enrol]
  cases session.roster.enrol name <;> rfl

theorem blind_markHero (file name : Text) : Blind (markHero file name) := by
  intro session cursor
  rw [runFrom_markHero, runFrom_markHero]
  cases session.roster.markHero name <;> rfl

theorem inherited_blind : Inherited @Blind where
  pure := blind_pure
  bind := Blind.bind
  record := blind_record
  ofModel := blind_ofModel
  invalidCard := fun file token => blind_throw (.invalidCard file token)
  enrol := blind_enrol
  markHero := fun file _ _ => blind_markHero file _

/-! ## Two runs -/

/-- From sessions that differ in their cursors only, both of which stand as `before` says,
two readings give the same result and leave sessions that differ in their cursors only. If
the result is an answer, these stand as `after` says of it. -/
def Together (before : Cursor → Prop) (x y : Reading α) (after : α → Cursor → Prop) : Prop :=
  ∀ (session : Session) (first second : Cursor), before first → before second →
    ∃ (result : Except ParseError α) (last : Session) (here there : Cursor),
      x.runFrom { session with cursor := first } = (result, { last with cursor := here }) ∧
      y.runFrom { session with cursor := second } = (result, { last with cursor := there }) ∧
      ∀ a, result = .ok a → after a here ∧ after a there

variable {before : Cursor → Prop} {x y : Reading α}

theorem Together.bind {f g : α → Reading β} {between : α → Cursor → Prop}
    {after : β → Cursor → Prop} (hx : Together before x y between)
    (hf : ∀ a, Together (between a) (f a) (g a) after) :
    Together before (x >>= f) (y >>= g) after := by
  intro session first second hfirst hsecond
  obtain ⟨result, last, here, there, one, other, still⟩ := hx session first second hfirst hsecond
  cases result with
  | error e =>
    refine ⟨.error e, last, here, there, runFrom_bind_of_error one f,
      runFrom_bind_of_error other g, ?_⟩
    rintro b ⟨⟩
  | ok a =>
    obtain ⟨hhere, hthere⟩ := still a rfl
    obtain ⟨final, end', here', there', one', other', done⟩ := hf a last here there hhere hthere
    exact ⟨final, end', here', there', (runFrom_bind_of_ok one f).trans one',
      (runFrom_bind_of_ok other g).trans other', done⟩

/-- A part that does not look at the cursor keeps whatever is known of it. -/
theorem Blind.together {x : Reading α} (hx : Blind x) (before : Cursor → Prop) :
    Together before x x fun _ => before := by
  intro session first second hfirst hsecond
  exact ⟨(x.runFrom session).1, (x.runFrom session).2, first, second, hx session first,
    hx session second, fun _ _ => ⟨hfirst, hsecond⟩⟩

theorem together_throw (e : ParseError) {after : α → Cursor → Prop} :
    Together before (throw e) (throw e) after := by
  intro session first second _ _
  refine ⟨.error e, session, first, second, rfl, rfl, ?_⟩
  rintro a ⟨⟩

theorem together_get {f g : Session → Reading α} {after : α → Cursor → Prop}
    (h : ∀ (session : Session) (first second : Cursor), before first → before second →
      Together before (f { session with cursor := first }) (g { session with cursor := second })
        after) :
    Together before (get >>= f) (get >>= g) after := by
  intro session first second hfirst hsecond
  rw [runFrom_bind_of_ok (runFrom_get _), runFrom_bind_of_ok (runFrom_get _)]
  exact h session first second hfirst hsecond session first second hfirst hsecond

theorem Together.mono {after wider : α → Cursor → Prop} (hx : Together before x y after)
    (h : ∀ a cursor, after a cursor → wider a cursor) : Together before x y wider := by
  intro session first second hfirst hsecond
  obtain ⟨result, last, here, there, one, other, still⟩ := hx session first second hfirst hsecond
  exact ⟨result, last, here, there, one, other, fun a ok =>
    ⟨h a here (still a ok).1, h a there (still a ok).2⟩⟩

/-- A move with one outcome for all cursors that stand as said, and what follows it. -/
theorem Together.move {move : Reading Bool} {step : Cursor → Bool × Cursor} {outcome : Bool}
    {f g : Bool → Reading α} {between : Cursor → Prop} {after : α → Cursor → Prop}
    (moves : ∀ session : Session, move.runFrom session =
      (.ok (step session.cursor).1, { session with cursor := (step session.cursor).2 }))
    (h : ∀ cursor, before cursor → ∃ next, step cursor = (outcome, next) ∧ between next)
    (hf : Together between (f outcome) (g outcome) after) :
    Together before (move >>= f) (move >>= g) after := by
  intro session first second hfirst hsecond
  obtain ⟨here, toHere, hhere⟩ := h first hfirst
  obtain ⟨there, toThere, hthere⟩ := h second hsecond
  rw [runFrom_bind_of_ok (moves _), runFrom_bind_of_ok (moves _)]
  dsimp only
  rw [toHere, toThere]
  exact hf session here there hhere hthere

theorem together_seek {wanted : Text → Bool} {found : Bool} {f g : Bool → Reading α}
    {between : Cursor → Prop} {after : α → Cursor → Prop}
    (h : ∀ cursor, before cursor → ∃ next, cursor.seek wanted = (found, next) ∧ between next)
    (hf : Together between (f found) (g found) after) :
    Together before (seek wanted >>= f) (seek wanted >>= g) after :=
  Together.move (runFrom_seek wanted) h hf

theorem together_nextLine {moved : Bool} {f g : Bool → Reading α} {between : Cursor → Prop}
    {after : α → Cursor → Prop}
    (h : ∀ cursor, before cursor → ∃ next, cursor.nextLine = (moved, next) ∧ between next)
    (hf : Together between (f moved) (g moved) after) :
    Together before (nextLine >>= f) (nextLine >>= g) after :=
  Together.move runFrom_nextLine h hf

end Reading

/-! ## Bodies -/

namespace Draft

open Reading

theorem blind_consume (context : HandContext) (draft : Draft) (raw : Text) :
    Blind (draft.consume context raw) :=
  inherited_consume inherited_blind raw

theorem blind_addSilentWinners (context : HandContext) (draft : Draft) :
    Blind (draft.addSilentWinners context) :=
  inherited_addSilentWinners inherited_blind

/-- The draft behind some lines, wherever they stand. -/
def consumeAll (context : HandContext) (lines : List Text) (draft : Draft) : Reading Draft :=
  lines.foldlM (fun draft line => draft.consume context line) draft

theorem consumeAll_cons (context : HandContext) (line : Text) (lines : List Text) (draft : Draft) :
    draft.consumeAll context (line :: lines) =
      draft.consume context line >>= consumeAll context lines :=
  List.foldlM_cons

theorem blind_consumeAll (context : HandContext) (lines : List Text) (draft : Draft) :
    Blind (draft.consumeAll context lines) := by
  induction lines generalizing draft with
  | nil => exact blind_pure draft
  | cons line lines ih =>
    rw [consumeAll_cons]
    exact (draft.blind_consume context line).bind ih

end Draft

namespace History

open Reading

/-- A body is read as its lines are, up to the next header, and the cursor is left in front
of that header unless a line is refused. -/
theorem runFrom_readBody_eq {room : Room} {context : HandContext} {draft : Draft} {current : Text}
    {lines : List Text} {session : Session}
    (on : session.cursor.OnLine session.cursor.file current lines)
    (inside : room.isHandStart current = false) :
    let body := draft.consumeAll context (lines.takeWhile fun line => !room.isHandStart line)
    ∃ cursor, (readBody room context lines draft).runFrom session =
        ((body.runFrom session).1, { (body.runFrom session).2 with cursor }) ∧
      ∀ last, (body.runFrom session).1 = .ok last → ∃ line,
        cursor.OnLine session.cursor.file line
            (lines.dropWhile fun line => !room.isHandStart line) ∧
          room.isHandStart line = false := by
  intro body
  induction lines generalizing session draft current with
  | nil =>
    exact ⟨session.cursor, rfl, fun _ _ => ⟨current, on, inside⟩⟩
  | cons line lines ih =>
    rw [readBody]
    by_cases start : room.isHandStart line = true
    · have stop : body = pure draft := by simp [body, start, Draft.consumeAll]
      rw [if_pos start, stop]
      refine ⟨session.cursor, rfl, fun _ _ => ⟨current, ?_, inside⟩⟩
      rwa [List.dropWhile_cons_of_neg (by simp [start])]
    · rw [Bool.not_eq_true] at start
      have step : body = draft.consume context line >>=
          Draft.consumeAll context (lines.takeWhile fun line => !room.isHandStart line) := by
        rw [← Draft.consumeAll_cons]
        simp [body, start]
      obtain ⟨next, moved, onNext⟩ := Cursor.nextLine_of_cons on.ahead_eq
      rw [if_neg (by simp [start]), List.dropWhile_cons_of_pos (by simp [start]), step,
        runFrom_bind_of_ok (runFrom_nextLine session), moved]
      have there := draft.blind_consume context line session next
      rcases read : (draft.consume context line).runFrom session with ⟨e | taken, between⟩
      · rw [read] at there
        refine ⟨next, ?_, ?_⟩
        · rw [runFrom_bind_of_error there, runFrom_bind_of_error read]
        · rw [runFrom_bind_of_error read]
          rintro last ⟨⟩
      · rw [read] at there
        rw [runFrom_bind_of_ok there, runFrom_bind_of_ok read]
        obtain ⟨cursor, rest, done⟩ := @ih taken line { between with cursor := next }
          ⟨rfl, onNext.place_eq, onNext.ahead_eq⟩ start
        rw [taken.blind_consumeAll context _ between next] at rest done
        refine ⟨cursor, rest, fun last ok => ?_⟩
        obtain ⟨stop, onStop, still⟩ := done last ok
        exact ⟨stop, onNext.file_eq ▸ onStop, still⟩

end History

end HandHistory
