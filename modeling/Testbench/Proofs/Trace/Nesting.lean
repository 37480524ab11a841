import Testbench.Proofs.Json.Effect
import Testbench.Proofs.Trace.Scanning

namespace Testbench

open Json

def Json.Event.depth : Event → Nat → Nat
  | .opened _, n => n + 1
  | .closed, n => n - 1
  | _, n => n

namespace Place

def depth : Place → Nat
  | .start | .finished => 0
  | .records => 1
  | .listed _ _ | .members _ | .member _ _ => 2
  | .composite n | .skipped _ n => n + 2

/-- What an event does to a place. Where a skipped value begins no bracket can close: it would be
the record's own. -/
structure Turn (before : Place) (e : Event) (after : Place) : Prop where
  depth_eq : (e = .closed → ∀ d, before ≠ .skipped d 0) → after.depth = e.depth before.depth
  closed_of_finished : after = .finished → e = .closed
  of_skipped : ∀ d, after = .skipped d 0 →
    (∃ key, e = .key key) ∨ before = .skipped d 0 ∧ e = .separator

variable {before after : Place} {e : Event}

theorem turn_of_depth (hfinished : after = .finished → e = .closed)
    (hskipped : ∀ d, after ≠ .skipped d 0) (hdepth : after.depth = e.depth before.depth) :
    before.Turn e after :=
  ⟨fun _ => hdepth, hfinished, fun d hd => absurd hd (hskipped d)⟩

theorem turn_self (hfinished : before ≠ .finished) (hskipped : ∀ d, before ≠ .skipped d 0)
    (hdepth : ∀ n, e.depth n = n) : before.Turn e before :=
  turn_of_depth (fun h => absurd h hfinished) hskipped (hdepth _).symm

theorem turn_composed {f : Record.Field} {b : Bracket} (hdepth : before.depth = 2)
    (h : composed f = .ok after) : before.Turn (.opened b) after := by
  cases f <;> cases h
  exact turn_of_depth nofun nofun (congrArg Nat.succ hdepth).symm

theorem turn_filled {d : Option Draft} {v : Scalar} {place : Draft → Place}
    (hplace : ∀ d, before.Turn (.scalar v) (place d)) (h : filled d place = .ok after) :
    before.Turn (.scalar v) after := by
  cases d with
  | none => cases h
  | some d =>
      cases h
      exact hplace d

theorem turn_atKey {d : Draft} {key : String} (h : atKey d key = .ok after) :
    (members d).Turn (.key key) after := by
  rw [atKey] at h
  split at h
  · split at h
    · cases h
    · cases h
      exact turn_of_depth nofun nofun rfl
  · cases h
    exact ⟨fun _ => rfl, nofun, fun _ _ => .inl ⟨key, rfl⟩⟩

theorem turn_skipped_closed (d : Draft) (n : Nat) :
    (skipped d n).Turn .closed (if n ≤ 1 then .members d else .skipped d (n - 1)) := by
  split
  · next hle =>
      refine ⟨fun h => ?_, nofun, nofun⟩
      have hne : n ≠ 0 := fun hzero => h rfl d (hzero ▸ rfl)
      simp only [depth, Event.depth]
      omega
  · next hgt =>
      refine turn_of_depth nofun (fun other hother => ?_) ?_
      · have hzero : n - 1 = 0 := (skipped.inj hother).2
        omega
      · simp only [depth, Event.depth]
        omega

end Place

namespace TraceReader

variable {r next : TraceReader} {e : Event}

theorem turn_of_moved {place : Except Fault Place} (h : r.moved place = .ok next)
    (hturn : ∀ after, place = .ok after → r.place.Turn e after) :
    next.scanner = r.scanner ∧ r.place.Turn e next.place := by
  cases place with
  | error fault => cases h
  | ok after =>
      cases h
      exact ⟨rfl, hturn after rfl⟩

theorem turn_of_complete {d : Draft} (hdepth : r.place.depth = 2) (h : r.complete d = .ok next) :
    next.scanner = r.scanner ∧ r.place.Turn .closed next.place := by
  rw [complete] at h
  split at h
  · cases h
    exact ⟨rfl, Place.turn_of_depth nofun nofun (congrArg Nat.pred hdepth).symm⟩
  · cases h

variable {records : Array Record} {scanner : Scanner}

theorem turn_of_accept_listed {d : Draft} {fields : List Record.Field}
    (h : accept ⟨records, .listed d fields, scanner⟩ e = .ok next) :
    next.scanner = scanner ∧ (Place.listed d fields).Turn e next.place := by
  cases fields with
  | nil =>
      cases e with
      | closed => exact turn_of_complete rfl h
      | _ => cases h
  | cons f fields =>
      cases e with
      | opened b => exact turn_of_moved h fun _ => Place.turn_composed rfl
      | separator =>
          cases h
          exact ⟨rfl, Place.turn_self nofun nofun fun _ => rfl⟩
      | scalar v =>
          exact turn_of_moved h fun _ => Place.turn_filled fun _ =>
            Place.turn_of_depth nofun nofun rfl
      | _ => cases h

theorem turn_of_accept_members {d : Draft}
    (h : accept ⟨records, .members d, scanner⟩ e = .ok next) :
    next.scanner = scanner ∧ (Place.members d).Turn e next.place := by
  cases e with
  | closed => exact turn_of_complete rfl h
  | separator =>
      cases h
      exact ⟨rfl, Place.turn_self nofun nofun fun _ => rfl⟩
  | key key => exact turn_of_moved h fun _ => Place.turn_atKey
  | _ => cases h

theorem turn_of_accept_member {d : Draft} {f : Record.Field}
    (h : accept ⟨records, .member d f, scanner⟩ e = .ok next) :
    next.scanner = scanner ∧ (Place.member d f).Turn e next.place := by
  cases e with
  | opened b => exact turn_of_moved h fun _ => Place.turn_composed rfl
  | scalar v =>
      exact turn_of_moved h fun _ => Place.turn_filled fun _ =>
        Place.turn_of_depth nofun nofun rfl
  | _ => cases h

theorem turn_of_accept_composite {n : Nat}
    (h : accept ⟨records, .composite n, scanner⟩ e = .ok next) :
    next.scanner = scanner ∧ (Place.composite n).Turn e next.place := by
  cases e with
  | opened b =>
      cases h
      exact ⟨rfl, Place.turn_of_depth nofun nofun rfl⟩
  | closed =>
      simp only [accept] at h
      split at h
      · cases h
      · next hinner =>
          cases h
          refine ⟨rfl, Place.turn_of_depth nofun nofun ?_⟩
          simp only [Place.depth, Event.depth]
          omega
  | _ =>
      cases h
      exact ⟨rfl, Place.turn_self nofun nofun fun _ => rfl⟩

theorem turn_of_accept_skipped {d : Draft} {n : Nat}
    (h : accept ⟨records, .skipped d n, scanner⟩ e = .ok next) :
    next.scanner = scanner ∧ (Place.skipped d n).Turn e next.place := by
  cases e with
  | opened b =>
      cases h
      exact ⟨rfl, Place.turn_of_depth nofun nofun rfl⟩
  | closed =>
      cases h
      exact ⟨rfl, Place.turn_skipped_closed d n⟩
  | scalar v =>
      cases n with
      | zero =>
          cases h
          exact ⟨rfl, Place.turn_of_depth nofun nofun rfl⟩
      | succ n =>
          cases h
          exact ⟨rfl, Place.turn_self nofun nofun fun _ => rfl⟩
  | separator =>
      cases h
      exact ⟨rfl, fun _ => rfl, nofun, fun _ hd => .inr ⟨hd, rfl⟩⟩
  | key key =>
      cases h
      exact ⟨rfl, fun _ => rfl, nofun, fun _ _ => .inl ⟨key, rfl⟩⟩

theorem turn_of_accept (h : r.accept e = .ok next) :
    next.scanner = r.scanner ∧ r.place.Turn e next.place := by
  obtain ⟨records, place, scanner⟩ := r
  cases place with
  | start =>
      cases e with
      | opened b =>
          cases b <;> cases h
          exact ⟨rfl, Place.turn_of_depth nofun nofun rfl⟩
      | _ => cases h
  | records =>
      cases e with
      | opened b => cases b <;> cases h <;> exact ⟨rfl, Place.turn_of_depth nofun nofun rfl⟩
      | closed =>
          cases h
          exact ⟨rfl, Place.turn_of_depth (fun _ => rfl) nofun rfl⟩
      | separator =>
          cases h
          exact ⟨rfl, Place.turn_self nofun nofun fun _ => rfl⟩
      | _ => cases h
  | listed d fields => exact turn_of_accept_listed h
  | members d => exact turn_of_accept_members h
  | member d f => exact turn_of_accept_member h
  | composite n => exact turn_of_accept_composite h
  | skipped d n => exact turn_of_accept_skipped h
  | finished => cases h

/-- The open brackets of a reader are those of its place. A value is awaited where it will be
skipped, and a reader behind the list has nothing left to read. -/
structure Nested (r : TraceReader) : Prop where
  length_stack : r.scanner.stack.length = r.place.depth
  awaitsValue : ∀ d, r.place = .skipped d 0 → r.scanner.phase.awaitsValue = true
  ended : r.place = .finished → r.scanner = .ended

theorem nested_start : start.Nested :=
  ⟨rfl, nofun, nofun⟩

variable {s : Scanner} {events : List Event}

theorem turn_of_take (htake : r.take (.ok (s, [e])) = .ok next) :
    next.scanner = s ∧ r.place.Turn e next.place := by
  rw [take_event] at htake
  exact turn_of_accept htake

theorem Nested.of_turn (h : r.Nested) (hturn : r.place.Turn e next.place)
    (hclosed : e = .closed → ∀ d, r.place ≠ .skipped d 0)
    (hlength : next.scanner.stack.length = e.depth r.scanner.stack.length)
    (hkey : ∀ key, e = .key key → next.scanner.phase.awaitsValue = true)
    (hseparator : e = .separator → r.scanner.phase.awaitsValue = false)
    (hended : next.scanner.stack = [] → e = .closed → next.scanner = .ended) : next.Nested := by
  have hdepth : next.scanner.stack.length = next.place.depth := by
    rw [hlength, h.length_stack, hturn.depth_eq hclosed]
  refine ⟨hdepth, fun d hd => ?_, fun hplace => ?_⟩
  · rcases hturn.of_skipped d hd with ⟨key, hevent⟩ | ⟨hplace, hevent⟩
    · exact hkey key hevent
    · have hawaits := h.awaitsValue d hplace
      rw [hseparator hevent] at hawaits
      cases hawaits
  · rw [hplace] at hdepth
    exact hended (List.length_eq_zero_iff.1 hdepth) (hturn.closed_of_finished hplace)

theorem Nested.take (h : r.Nested) (heffect : r.scanner.Effect s events)
    (htake : r.take (.ok (s, events)) = .ok next) : next.Nested := by
  cases heffect with
  | silent hstack hphase hended =>
      cases htake
      exact ⟨hstack ▸ h.length_stack, fun d hd => hphase.trans (h.awaitsValue d hd),
        fun hplace => (hended (h.ended hplace)).trans (h.ended hplace)⟩
  | opened b phase =>
      obtain ⟨hscanner, hturn⟩ := turn_of_take htake
      exact h.of_turn hturn nofun (by rw [hscanner]; rfl) nofun nofun nofun
  | closed hstack hphase =>
      obtain ⟨hscanner, hturn⟩ := turn_of_take htake
      refine h.of_turn hturn (fun _ d hplace => ?_) ?_ nofun nofun fun hempty _ => ?_
      · have hawaits := h.awaitsValue d hplace
        rw [hphase] at hawaits
        cases hawaits
      · rw [hscanner, hstack]
        rfl
      · rw [hscanner] at hempty ⊢
        obtain rfl : _ = [] := hempty
        rfl
  | separated phase hphase =>
      obtain ⟨hscanner, hturn⟩ := turn_of_take htake
      exact h.of_turn hturn nofun (by rw [hscanner]; rfl) nofun (fun _ => hphase) nofun
  | key text =>
      obtain ⟨hscanner, hturn⟩ := turn_of_take htake
      exact h.of_turn hturn nofun (by rw [hscanner]; rfl) (fun _ _ => by rw [hscanner]; rfl)
        nofun nofun
  | scalar v =>
      obtain ⟨hscanner, hturn⟩ := turn_of_take htake
      exact h.of_turn hturn nofun (by rw [hscanner]; rfl) nofun nofun nofun

theorem Nested.of_take {met : Except Fault (Scanner × List Event)} (h : r.Nested)
    (heffect : ∀ s events, met = .ok (s, events) → r.scanner.Effect s events)
    (htake : r.take met = .ok next) : next.Nested := by
  cases met with
  | error fault => cases htake
  | ok met => exact h.take (heffect met.1 met.2 rfl) htake

theorem Nested.step {b : UInt8} (h : r.Nested) (hstep : r.step b = .ok next) : next.Nested := by
  obtain ⟨settled, hsettle, hstep⟩ := Files.eq_ok_of_bind hstep
  have hsettled := h.of_take (fun _ _ => Scanner.effect_settle) hsettle
  exact hsettled.of_take (fun _ _ => Scanner.effect_step) hstep

theorem Nested.run {bs : List UInt8} (h : r.Nested) (hrun : r.run bs = .ok next) :
    next.Nested := by
  induction bs generalizing r with
  | nil =>
      cases hrun
      exact h
  | cons b bs ih =>
      obtain ⟨middle, hstep, hrun⟩ := Files.eq_ok_of_bind hrun
      exact ih (h.step hstep) hrun

end TraceReader

end Testbench
