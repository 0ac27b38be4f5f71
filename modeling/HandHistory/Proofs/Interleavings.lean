import HandHistory.Proofs.SharedRoster

/-!
# Clients that share a roster

Any number of clients ask one roster, each of them in an order of its own, and every
operation is one step. Which client comes next is open: `Interleaved` admits every
order in which the operations of a client keep theirs.

What an operation carries is added to what is there (`gathers_perform`), so in the end
the roster has what all clients have carried to it (`gathers_serve`), in whatever order
they came. An order decides no more than which client is told that a name is new, and
at most one of them is (`count_isNew_serve_le`).
-/

namespace HandHistory

namespace Roster

/-- What a client can ask of a roster. -/
inductive Operation where
  | enrol (name : Text)
  | markHero (name : Text)
  | absorb (players : List Player)
  deriving DecidableEq

inductive Reply where
  | enrolled (isNew : Bool)
  | done
  | refused (e : ModelError)
  deriving DecidableEq

/-- One step: the reply, and the roster afterwards. -/
def Operation.perform (roster : Roster) : Operation → Reply × Roster
  | .enrol name =>
    match roster.enrol name with
    | .ok (isNew, after) => (.enrolled isNew, after)
    | .error e => (.refused e, roster)
  | .markHero name =>
    match roster.markHero name with
    | .ok after => (.done, after)
    | .error e => (.refused e, roster)
  | .absorb players => (.done, roster.absorb players)

/-- Performs operations one after the other: what each was replied, and the roster
in the end. -/
def serve : List Operation → Roster → List (Operation × Reply) × Roster
  | [], roster => ([], roster)
  | operation :: order, roster =>
    let (reply, between) := operation.perform roster
    let (trace, after) := serve order between
    ((operation, reply) :: trace, after)

/-- The order holds the operations of all clients, those of each client in its own order. -/
inductive Interleaved : List (List Operation) → List Operation → Prop
  | done {clients : List (List Operation)} (idle : ∀ client ∈ clients, client = []) :
      Interleaved clients []
  | next {earlier later : List (List Operation)} {operation : Operation}
      {rest order : List Operation} (others : Interleaved (earlier ++ rest :: later) order) :
      Interleaved (earlier ++ (operation :: rest) :: later) (operation :: order)

/-- The names that an operation carries, each with whether it comes as the hero. -/
def Operation.carried : Operation → List (Text × Bool)
  | .enrol name => [(name, false)]
  | .markHero name => [(name, true)]
  | .absorb players => players.map fun player => (player.name, player.isHero)

/-- A roster has afterwards what it had before and what was carried to it under a name. -/
structure Gathers (carried : List (Text × Bool)) (before after : Roster) : Prop where
  site : after.site = before.site
  names : ∀ name, name ∈ after.players.names ↔
    name ∈ before.players.names ∨ name ≠ [] ∧ ∃ flag, (name, flag) ∈ carried
  heroes : ∀ name, after.players.Hero name ↔
    before.players.Hero name ∨ name ≠ [] ∧ (name, true) ∈ carried

variable {before between after roster : Roster} {name : Text}

/-! ## One operation -/

/-- Without a name, nothing is carried. -/
theorem gathers_unnamed {carried : List (Text × Bool)}
    (unnamed : ∀ name flag, (name, flag) ∈ carried → name = []) :
    Gathers carried roster roster where
  site := rfl
  names := fun name => (or_iff_left fun ⟨named, flag, inside⟩ =>
    named (unnamed name flag inside)).symm
  heroes := fun name => (or_iff_left fun ⟨named, inside⟩ =>
    named (unnamed name true inside)).symm

theorem Gains.gathers {flag : Bool} (named : name ≠ [])
    (gains : Gains [(name, flag)] before after) : Gathers [(name, flag)] before after where
  site := gains.site
  names := by
    intro other
    rw [gains.names]
    refine or_congr_right (iff_and_self.2 ?_)
    rintro ⟨same, inside⟩
    cases List.mem_singleton.1 inside
    exact named
  heroes := by
    intro other
    rw [gains.heroes]
    refine or_congr_right (iff_and_self.2 fun inside => ?_)
    cases List.mem_singleton.1 inside
    exact named

theorem gathers_absorb (players : List Player) :
    Gathers (Operation.absorb players).carried roster (roster.absorb players) where
  site := rfl
  names := by
    intro name
    rw [absorb, Players.mem_names_foldl_absorb, or_comm]
    refine or_congr_right ?_
    constructor
    · rintro ⟨player, inside, rfl⟩
      exact ⟨player.name_ne_nil, player.isHero, List.mem_map_of_mem inside⟩
    · rintro ⟨-, flag, inside⟩
      obtain ⟨player, there, same⟩ := List.mem_map.1 inside
      exact ⟨player, there, congrArg Prod.fst same⟩
  heroes := by
    intro name
    rw [absorb, Players.hero_foldl_absorb, or_comm]
    refine or_congr_right ?_
    constructor
    · rintro ⟨player, inside, rfl, hero⟩
      exact ⟨player.name_ne_nil, List.mem_map.2 ⟨player, inside, by rw [hero]⟩⟩
    · rintro ⟨-, inside⟩
      obtain ⟨player, there, same⟩ := List.mem_map.1 inside
      exact ⟨player, there, congrArg Prod.fst same, congrArg Prod.snd same⟩

theorem perform_enrol_nil (roster : Roster) :
    (Operation.enrol []).perform roster = (.refused (.emptyField .playerName), roster) := by
  rw [Operation.perform, enrol_nil]

theorem perform_markHero_nil (roster : Roster) :
    (Operation.markHero []).perform roster = (.refused (.emptyField .playerName), roster) := by
  rw [Operation.perform, markHero_nil]

/-- The step: an operation adds what it carries, whatever is there. -/
theorem gathers_perform (ready : roster.site ≠ []) (operation : Operation) :
    Gathers operation.carried roster (operation.perform roster).2 := by
  cases operation with
  | enrol name =>
    by_cases unnamed : name = []
    · subst unnamed
      rw [perform_enrol_nil]
      exact gathers_unnamed (by simp [Operation.carried])
    · obtain ⟨isNew, after, enrolled, -⟩ := enrol_of_ne_nil ready unnamed
      rw [Operation.perform, enrolled]
      exact (gains_enrol enrolled).gathers unnamed
  | markHero name =>
    by_cases unnamed : name = []
    · subst unnamed
      rw [perform_markHero_nil]
      exact gathers_unnamed (by simp [Operation.carried])
    · obtain ⟨after, marked, -⟩ := markHero_of_ne_nil ready unnamed
      rw [Operation.perform, marked]
      exact (gains_markHero marked).gathers unnamed
  | absorb players => exact gathers_absorb players

/-! ## All operations of an order -/

theorem Gathers.trans {first second : List (Text × Bool)} (h : Gathers first before between)
    (h' : Gathers second between after) : Gathers (first ++ second) before after where
  site := h'.site.trans h.site
  names := by
    intro name
    rw [h'.names, h.names, or_assoc, ← and_or_left, ← exists_or]
    simp only [List.mem_append]
  heroes := by
    intro name
    rw [h'.heroes, h.heroes, or_assoc, ← and_or_left, List.mem_append]

/-- The run: a roster has in the end what all operations have carried to it. -/
theorem gathers_serve (ready : roster.site ≠ []) (order : List Operation) :
    Gathers (order.flatMap Operation.carried) roster (serve order roster).2 := by
  induction order generalizing roster with
  | nil => exact gathers_unnamed (by simp)
  | cons operation order ih =>
    have first := gathers_perform ready operation
    have stillReady : (operation.perform roster).2.site ≠ [] := first.site ▸ ready
    exact first.trans (ih stillReady)

/-- What was carried counts, and not in which order. -/
theorem Gathers.congr {first second : List (Text × Bool)}
    (same : ∀ pair, pair ∈ first ↔ pair ∈ second) (h : Gathers first before after) :
    Gathers second before after where
  site := h.site
  names := by simpa only [same] using h.names
  heroes := by simpa only [same] using h.heroes

/-- The marks follow from what was carried. -/
theorem Gathers.mark?_eq {carried : List (Text × Bool)} {other : Roster}
    (h : Gathers carried before after) (h' : Gathers carried before other) (name : Text) :
    after.players.mark? name = other.players.mark? name :=
  Players.mark?_congr ((h.names name).trans (h'.names name).symm)
    ((h.heroes name).trans (h'.heroes name).symm)

/-! ## Who is told that a name is new -/

/-- A name is new only where it was not known before, and it is known afterwards. -/
theorem known_of_isNew (told : ((Operation.enrol name).perform roster).1 = .enrolled true) :
    name ∉ roster.players.names ∧
      name ∈ ((Operation.enrol name).perform roster).2.players.names := by
  rw [Operation.perform] at told ⊢
  cases enrolled : roster.enrol name with
  | error e =>
    rw [enrolled] at told
    cases told
  | ok answer =>
    obtain ⟨isNew, after⟩ := answer
    rw [enrolled] at told
    cases told
    refine ⟨fun known => ?_, ?_⟩
    · rw [enrol_of_mem known] at enrolled
      cases enrolled
    · exact ((gains_enrol enrolled).names name).2 (.inr ⟨false, List.mem_cons_self⟩)

/-- Whoever is known is nobody new, and once told new a name is known. -/
theorem count_isNew_serve_le (ready : roster.site ≠ []) (order : List Operation) (name : Text) :
    (serve order roster).1.count (.enrol name, .enrolled true) ≤
      if name ∈ roster.players.names then 0 else 1 := by
  induction order generalizing roster with
  | nil => exact Nat.zero_le _
  | cons operation order ih =>
    have first := gathers_perform ready operation
    have rest := @ih (operation.perform roster).2 (first.site ▸ ready)
    have kept : name ∈ roster.players.names →
        name ∈ (operation.perform roster).2.players.names :=
      fun known => (first.names name).2 (.inl known)
    show List.count _ ((operation, (operation.perform roster).1) :: _) ≤ _
    by_cases isNew : (operation, (operation.perform roster).1) = (.enrol name, .enrolled true)
    · obtain ⟨rfl, told⟩ := Prod.mk.inj isNew
      obtain ⟨unknown, known⟩ := known_of_isNew told
      rw [if_pos known] at rest
      rw [isNew, List.count_cons_self, if_neg unknown]
      exact Nat.succ_le_succ rest
    · rw [List.count_cons_of_ne isNew]
      refine rest.trans ?_
      split
      · exact Nat.zero_le _
      · next unknown => rw [if_neg fun known => unknown (kept known)]

/-! ## All orders -/

theorem Interleaved.perm {clients : List (List Operation)} {order : List Operation}
    (interleaved : Interleaved clients order) : order.Perm clients.flatten := by
  induction interleaved with
  | done idle => rw [List.flatten_eq_nil_iff.2 idle]
  | @next earlier later operation rest order others ih =>
    rw [List.flatten_append, List.flatten_cons, List.cons_append]
    rw [List.flatten_append, List.flatten_cons] at ih
    exact (ih.cons operation).trans List.perm_middle.symm

/-- The clients can always be served, for instance one after the other. -/
theorem interleaved_flatten (clients : List (List Operation)) :
    Interleaved clients clients.flatten := by
  suffices ∀ idle : List (List Operation), (∀ client ∈ idle, client = []) →
      Interleaved (idle ++ clients) clients.flatten from this [] (by simp)
  induction clients with
  | nil => exact fun idle none => .done (by simpa using none)
  | cons client clients ih =>
    intro idle none
    induction client with
    | nil =>
      have more := ih (idle ++ [[]]) (by simpa [or_imp, forall_and] using none)
      simpa using more
    | cons operation client ihClient => exact .next ihClient

/-- Clients share a roster. In every order of their operations the roster gathers the same
from them, and so any two orders leave the same names with the same hero marks; and no name
is new to more than one client. Without a name, nobody is enrolled or marked: the operation
is refused, and the roster is left as it was. -/
theorem serve_interleaved (clients : List (List Operation)) (roster : Roster)
    (ready : roster.site ≠ []) :
    (∃ order, Interleaved clients order) ∧
    (∀ order, Interleaved clients order →
      Gathers (clients.flatten.flatMap Operation.carried) roster (serve order roster).2 ∧
      ∀ name, (serve order roster).1.count (.enrol name, .enrolled true) ≤ 1) ∧
    (∀ order other, Interleaved clients order → Interleaved clients other → ∀ name,
      (serve order roster).2.players.mark? name = (serve other roster).2.players.mark? name) ∧
    ∀ between : Roster,
      (Operation.enrol []).perform between = (.refused (.emptyField .playerName), between) ∧
      (Operation.markHero []).perform between = (.refused (.emptyField .playerName), between) := by
  have gathers : ∀ order, Interleaved clients order →
      Gathers (clients.flatten.flatMap Operation.carried) roster (serve order roster).2 :=
    fun order interleaved => (gathers_serve ready order).congr fun pair =>
      (interleaved.perm.flatMap_right Operation.carried).mem_iff
  refine ⟨⟨clients.flatten, interleaved_flatten clients⟩, fun order interleaved =>
    ⟨gathers order interleaved, fun name => ?_⟩, fun order other one another name =>
    (gathers order one).mark?_eq (gathers other another) name, fun between =>
    ⟨perform_enrol_nil between, perform_markHero_nil between⟩⟩
  have atMost := count_isNew_serve_le ready order name
  split at atMost
  · exact atMost.trans (Nat.zero_le 1)
  · exact atMost

/-- The hero ann comes in before she is enrolled, bob is enrolled before he is marked. Served
one client after the other, she would be enrolled first. -/
theorem serve_interleaved_three_clients :
    let ann : Player := { name := "ann", site := "R", isHero := true,
                          name_ne_nil := by decide, site_ne_nil := by decide }
    let clients : List (List Operation) :=
      [[.enrol "ann"], [.enrol "bob", .markHero "bob"], [.absorb [ann], .enrol []]]
    let order : List Operation :=
      [.enrol "bob", .absorb [ann], .enrol "ann", .enrol [], .markHero "bob"]
    let roster : Roster := { site := "R" }
    roster.site ≠ [] ∧ Interleaved clients order ∧
      (serve order roster).2.players.mark? "ann" = some true ∧
      (serve order roster).2.players.mark? "bob" = some true ∧
      (serve order roster).1.count (.enrol "ann", .enrolled true) ≤ 1 ∧
      (Operation.enrol []).perform roster = (.refused (.emptyField .playerName), roster) := by
  intro ann clients order roster
  have ready : roster.site ≠ [] := by decide
  obtain ⟨-, each, same, refused⟩ := serve_interleaved clients roster ready
  have interleaved : Interleaved clients order :=
    @Interleaved.next [[.enrol "ann"]] [[.absorb [ann], .enrol []]] _ _ _ <|
    @Interleaved.next [[.enrol "ann"], [.markHero "bob"]] [] _ _ _ <|
    @Interleaved.next [] [[.markHero "bob"], [.enrol []]] _ _ _ <|
    @Interleaved.next [[], [.markHero "bob"]] [] _ _ _ <|
    @Interleaved.next [[]] [[]] _ _ _ <| .done (by simp)
  have marks := same order clients.flatten interleaved (interleaved_flatten clients)
  refine ⟨ready, interleaved, ?_, ?_, (each order interleaved).2 "ann", (refused roster).1⟩
  · exact (marks "ann").trans (by decide)
  · exact (marks "bob").trans (by decide)

end Roster

end HandHistory
