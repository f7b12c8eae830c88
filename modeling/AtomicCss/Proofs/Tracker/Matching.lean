import AtomicCss.Proofs.Tracker.Moves
import Mathlib.Tactic.Choose

/-!
# Matching Reports with Writes

Each report that is let pass belongs to one write.

A slot says which write is awaited, but not when the write was asked for, and on
the way the slot may have been filled, filled again, emptied and filled with the
same text once more. To say that the reports that are let pass are reports of
own writes, each of its own, the history is needed. A report that is let pass
finds its text in the slot, and the text came there at some earlier place. From
that place on the slot stayed as it was, so nothing was written for the element in
between, and no report of it was let pass either, since that would have emptied
the slot (`exists_write_of_awaitedAt`). The first says that the write is the last
one in front of the report. The second says that two reports cannot belong to one
write: the earlier of them would stand between the write and the later one.

In the other direction, a write fills the slot, and what does not concern the
element leaves the slot alone. So if nothing concerns the element until its write
is reported, the report is let pass, however much happens to others in the
meantime (`awaitedAt_of_idle`).

## Main definitions

* `Tracker.WritesAt`, `Tracker.PassesAt`: What happens at a place in a row of moves.

## Theorems

* `exists_write_of_awaitedAt`: Where the text in a slot comes from.
* `exists_source`: Each report that is let pass has a write of its own.
* `awaitedAt_of_idle`: A write is awaited until something concerns its element.
* `echoes_match_writes`: Reports and writes of a history, matched both ways.
-/

namespace AtomicCss

namespace Tracker

variable {σ : Type} [Stylesheet σ]

/-- At this place in a row of moves a write begins to wait. -/
def WritesAt (t : Tracker σ) (moves : List Move) (i : Nat) (node : NodeKey) (value : String) :
    Prop :=
  ∃ m, moves[i]? = some m ∧ (t.before moves i).Writes m node value

/-- At this place in a row of moves a report is let pass. -/
def PassesAt (t : Tracker σ) (moves : List Move) (i : Nat) (node : NodeKey) (value : String) :
    Prop :=
  ∃ m, moves[i]? = some m ∧ (t.before moves i).Passes m node value

/-- There is one write in a move at most. -/
theorem eq_of_writesAt (t : Tracker σ) (moves : List Move) (i : Nat) (node other : NodeKey)
    (value more : String) (h : t.WritesAt moves i node value) (h' : t.WritesAt moves i other more) :
    node = other ∧ value = more := by
  rcases h with ⟨m, hm, hwrites⟩
  rcases h' with ⟨m', hm', hwrites'⟩
  cases Option.some.inj (hm.symm.trans hm')
  have hcons := List.append_cancel_left (hwrites.symm.trans hwrites')
  rw [List.cons.injEq, Update.setAttr.injEq] at hcons
  exact ⟨hcons.1.1, hcons.1.2.2⟩

theorem eq_of_passesAt (t : Tracker σ) (moves : List Move) (i : Nat) (node other : NodeKey)
    (value more : String) (h : t.PassesAt moves i node value) (h' : t.PassesAt moves i other more) :
    node = other ∧ value = more := by
  rcases h with ⟨m, hm, rfl, _⟩
  rcases h' with ⟨m', hm', rfl, _⟩
  have hmove := Option.some.inj (hm.symm.trans hm')
  rw [Move.report.injEq] at hmove
  exact hmove

/-- In front of a report that is let pass its text is awaited. -/
theorem awaitedAt_of_passesAt (t : Tracker σ) (moves : List Move) (i : Nat) (node : NodeKey)
    (value : String) (h : t.PassesAt moves i node value) :
    (t.before moves i).awaitedAt node = some value := by
  rcases h with ⟨m, _, _, hecho⟩
  exact ((t.before moves i).isEcho_iff node value).1 hecho

/-- Where the text in a slot comes from. It was written at an earlier place, and
    from there on nothing was written for the element and no report of it was let
    pass. The induction is on the place: the text came with the last move, or it was
    there before. -/
theorem exists_write_of_awaitedAt (t : Tracker σ) (hempty : ∀ node, t.awaitedAt node = none)
    (moves : List Move) (i : Nat) (node : NodeKey) (value : String)
    (h : (t.before moves i).awaitedAt node = some value) :
    ∃ j, j < i ∧ t.WritesAt moves j node value ∧
      ∀ l, j < l → l < i → ∀ other, ¬ t.WritesAt moves l node other ∧
        ¬ t.PassesAt moves l node other := by
  induction i with
  | zero =>
      have hnone : (t.before moves 0).awaitedAt node = none := hempty node
      rw [hnone] at h
      exact absurd h (by simp only [reduceCtorEq, not_false_eq_true])
  | succ k ih =>
      -- Either the move at this place wrote it, or this place did not matter.
      have hstep : t.WritesAt moves k node value ∨
          ((t.before moves k).awaitedAt node = some value ∧
            ∀ other, ¬ t.WritesAt moves k node other ∧ ¬ t.PassesAt moves k node other) := by
        cases hmove : moves[k]? with
        | none =>
            rw [before_succ_of_none t moves k hmove] at h
            refine Or.inr ⟨h, fun other => ⟨?_, ?_⟩⟩ <;> rintro ⟨m, hm, _⟩ <;>
              exact absurd (hmove.symm.trans hm) (by simp only [reduceCtorEq, not_false_eq_true])
        | some m =>
            rw [before_succ t moves k m hmove] at h
            rcases (t.before moves k).awaitedAt_of_move m node value h with hwrites | ⟨hold, hnone⟩
            · exact Or.inl ⟨m, hmove, hwrites⟩
            · refine Or.inr ⟨hold, fun other => ⟨?_, ?_⟩⟩ <;> rintro ⟨m', hm', hdone⟩ <;>
                cases Option.some.inj (hmove.symm.trans hm')
              · exact (hnone other).1 hdone
              · exact (hnone other).2 hdone
      rcases hstep with hwrites | ⟨hold, hnone⟩
      · exact ⟨k, Nat.lt_succ_self k, hwrites, fun l hjl hlk => absurd hlk (by omega)⟩
      · rcases ih hold with ⟨j, hjk, hwrites, hbetween⟩
        refine ⟨j, Nat.lt_succ_of_lt hjk, hwrites, fun l hjl hlk => ?_⟩
        rcases Nat.lt_succ_iff_lt_or_eq.1 hlk with hlt | heq
        · exact hbetween l hjl hlt
        · rw [heq]
          exact hnone

/-- Each report that is let pass has a write of its own. It is the last write for
    the element in front of the report. -/
theorem exists_source (t : Tracker σ) (hempty : ∀ node, t.awaitedAt node = none)
    (moves : List Move) :
    ∃ source : Nat → Nat,
      (∀ i node value, t.PassesAt moves i node value →
        source i < i ∧ t.WritesAt moves (source i) node value ∧
        ∀ j, source i < j → j < i → ∀ other, ¬ t.WritesAt moves j node other) ∧
      ∀ i k node other value more, t.PassesAt moves i node value → t.PassesAt moves k other more →
        source i = source k → i = k := by
  have hexists : ∀ i, ∃ j, ∀ node value, t.PassesAt moves i node value →
      j < i ∧ t.WritesAt moves j node value ∧ ∀ l, j < l → l < i → ∀ other,
        ¬ t.WritesAt moves l node other ∧ ¬ t.PassesAt moves l node other := by
    intro i
    by_cases hpass : ∃ node value, t.PassesAt moves i node value
    · rcases hpass with ⟨node, value, hpass⟩
      rcases t.exists_write_of_awaitedAt hempty moves i node value
        (t.awaitedAt_of_passesAt moves i node value hpass) with ⟨j, hj⟩
      refine ⟨j, fun other more hmore => ?_⟩
      rcases t.eq_of_passesAt moves i node other value more hpass hmore with ⟨rfl, rfl⟩
      exact hj
    · exact ⟨0, fun node value h => absurd ⟨node, value, h⟩ hpass⟩
  choose source hsource using hexists
  refine ⟨source, fun i node value hpass => ?_, fun i k node other value more hi hk heq => ?_⟩
  · rcases hsource i node value hpass with ⟨hlt, hwrites, hbetween⟩
    exact ⟨hlt, hwrites, fun j hj hji more => (hbetween j hj hji more).1⟩
  · rcases hsource i node value hi with ⟨hlti, hwritesi, hbetweeni⟩
    rcases hsource k other more hk with ⟨hltk, hwritesk, hbetweenk⟩
    rw [heq] at hlti hwritesi hbetweeni
    -- One write is for one element, so both reports are of that element.
    rcases t.eq_of_writesAt moves _ node other value more hwritesi hwritesk with ⟨rfl, rfl⟩
    rcases Nat.lt_trichotomy i k with hlt | hsame | hgt
    · exact absurd hi (hbetweenk i hlti hlt value).2
    · exact hsame
    · exact absurd hk (hbetweeni k hltk hgt value).2

/-- A write is awaited until something concerns its element. -/
theorem awaitedAt_of_idle (t : Tracker σ) (moves : List Move) (i k : Nat) (node : NodeKey)
    (value : String) (hwrites : t.WritesAt moves i node value) (hik : i < k)
    (hidle : ∀ j m, i < j → j < k → moves[j]? = some m → ¬ (t.before moves j).Concerns m node) :
    (t.before moves k).awaitedAt node = some value := by
  induction k with
  | zero => exact absurd hik (Nat.not_lt_zero i)
  | succ l ih =>
      rcases Nat.lt_succ_iff_lt_or_eq.1 hik with hlt | heq
      · have hold := ih hlt (fun j m hj hjl => hidle j m hj (Nat.lt_succ_of_lt hjl))
        cases hmove : moves[l]? with
        | none => rw [before_succ_of_none t moves l hmove, hold]
        | some m =>
            rw [before_succ t moves l m hmove, awaitedAt_of_not_concerns _ m node
              (hidle l m hlt (Nat.lt_succ_self l) hmove), hold]
      · rw [heq] at hwrites
        rcases hwrites with ⟨m, hmove, hwrites⟩
        rw [before_succ t moves l m hmove]
        exact awaitedAt_of_writes _ m node value hwrites

/-- The first report of a write, if nothing concerned the element since, is let
    pass, and nothing comes of it. -/
theorem passesAt_of_idle (t : Tracker σ) (moves : List Move) (i k : Nat) (node : NodeKey)
    (value : String) (hwrites : t.WritesAt moves i node value) (hik : i < k)
    (hreport : moves[k]? = some (.report node value))
    (hidle : ∀ j m, i < j → j < k → moves[j]? = some m → ¬ (t.before moves j).Concerns m node) :
    t.PassesAt moves k node value ∧
      (t.before moves (k + 1)).synthesizer = (t.before moves k).synthesizer ∧
      (t.before moves (k + 1)).outgoing = (t.before moves k).outgoing := by
  have hecho := ((t.before moves k).isEcho_iff node value).2
    (t.awaitedAt_of_idle moves i k node value hwrites hik hidle)
  have hpass : (t.before moves k).Passes (.report node value) node value := ⟨rfl, hecho⟩
  have hquiet := move_of_passes _ _ node value hpass
  rw [before_succ t moves k _ hreport]
  exact ⟨⟨_, hreport, hpass⟩, hquiet.1, hquiet.2.1⟩

/-- The reports that are let pass in a history, and the writes that were asked for.
    To each such report belongs an earlier write of the same text for the same
    element, with no other write for that element between the two, and to no two
    reports belongs the same write. The other way round, if a write is reported and
    nothing has concerned its element since, the report is let pass: no rule and no
    write comes of it, whatever happened to other elements. -/
theorem echoes_match_writes (sheet : σ) (config : Config) (calls : List Call) :
    let t := new sheet config
    let moves := calls.flatMap Call.moves
    (t.run calls).value.2 = t.moved moves ∧
    (∃ source : Nat → Nat,
      (∀ i node value, t.PassesAt moves i node value →
        source i < i ∧ t.WritesAt moves (source i) node value ∧
        ∀ j, source i < j → j < i → ∀ other, ¬ t.WritesAt moves j node other) ∧
      ∀ i k node other value more, t.PassesAt moves i node value → t.PassesAt moves k other more →
        source i = source k → i = k) ∧
    ∀ i k node value, t.WritesAt moves i node value → i < k →
      moves[k]? = some (.report node value) →
      (∀ j m, i < j → j < k → moves[j]? = some m → ¬ (t.before moves j).Concerns m node) →
      t.PassesAt moves k node value ∧
        (t.before moves (k + 1)).synthesizer = (t.before moves k).synthesizer ∧
        (t.before moves (k + 1)).outgoing = (t.before moves k).outgoing := by
  intro t moves
  have hempty : ∀ node, t.awaitedAt node = none := by
    intro node
    rw [awaitedAt, show t.elements = {} from rfl, Std.TreeMap.getElem?_emptyc]
    rfl
  exact ⟨t.moved_run calls, t.exists_source hempty moves, t.passesAt_of_idle moves⟩

/-- A write is reported after another element was told of and a batch was taken. -/
theorem echoes_match_writes_late :
    let calls : List Call := [.update (.setAttr ⟨1⟩ "class" "hover:color_red"),
      .sweep [(⟨2⟩, "focus:gap_1px")], .take, .update (.setAttr ⟨1⟩ "CLASS" "color_red")]
    let t := new ({} : MemorySheet) {}
    let moves := calls.flatMap Call.moves
    t.WritesAt moves 0 ⟨1⟩ "color_red" ∧ t.WritesAt moves 1 ⟨2⟩ "gap_1px" ∧
    t.PassesAt moves 3 ⟨1⟩ "color_red" ∧
    (t.before moves 4).outgoing = (t.before moves 3).outgoing ∧
    ∃ i, i < 3 ∧ t.WritesAt moves i ⟨1⟩ "color_red" ∧
      ∀ j, i < j → j < 3 → ∀ other, ¬ t.WritesAt moves j ⟨1⟩ other := by
  intro calls t moves
  have hfirst : t.WritesAt moves 0 ⟨1⟩ "color_red" :=
    ⟨.report ⟨1⟩ "hover:color_red", rfl, by unfold Writes; decide +kernel⟩
  have hsecond : t.WritesAt moves 1 ⟨2⟩ "gap_1px" :=
    ⟨.news (.added ⟨2⟩ "focus:gap_1px"), rfl, by unfold Writes; decide +kernel⟩
  have hidle : ∀ j m, 0 < j → j < 3 → moves[j]? = some m →
      ¬ (t.before moves j).Concerns m ⟨1⟩ := by
    intro j m hpos hlt hmove
    have hcases : j = 1 ∨ j = 2 := by omega
    rcases hcases with rfl | rfl
    · cases Option.some.inj hmove
      exact fun heq => absurd heq (by decide)
    · cases Option.some.inj hmove
      exact id
  rcases echoes_match_writes ({} : MemorySheet) {} calls with ⟨_, ⟨source, hsource, _⟩, hquiet⟩
  rcases hquiet 0 3 ⟨1⟩ "color_red" hfirst (by decide) rfl hidle with ⟨hpass, _, hout⟩
  exact ⟨hfirst, hsecond, hpass, hout, source 3, hsource 3 ⟨1⟩ "color_red" hpass⟩

end Tracker

end AtomicCss
