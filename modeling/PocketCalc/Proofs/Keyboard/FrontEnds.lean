import PocketCalc.Proofs.Dialogue.Answers
import PocketCalc.Proofs.Panel.Presses

/-!
# Two front ends, one calculator

The panel and the dialogue read their keys with separate maps, and each keeps some keys for itself.
On all other keys (`Key.IsCommon`) the two maps ask for the same action (`Key.IsCommon.action?`),
the panel never opens its help and neither front end quits. So both run their sessions through the
same actions, and the sessions are never different (`front_ends_agree`).
-/

namespace PocketCalc

open Dialogue

/-- A key without Control and Alt that neither quits a front end nor opens the help of the panel. -/
structure Key.IsCommon (k : Key) : Prop where
  control : k.control = false
  alt : k.alt = false
  ne_quit : k.code ≠ .char 'q' ∧ k.code ≠ .char 'Q'
  ne_help : k.code ≠ .function 1

instance (k : Key) : Decidable k.IsCommon :=
  decidable_of_iff
    (k.control = false ∧ k.alt = false ∧ (k.code ≠ .char 'q' ∧ k.code ≠ .char 'Q') ∧
      k.code ≠ .function 1)
    ⟨fun ⟨h₁, h₂, h₃, h₄⟩ => ⟨h₁, h₂, h₃, h₄⟩, fun ⟨h₁, h₂, h₃, h₄⟩ => ⟨h₁, h₂, h₃, h₄⟩⟩

/-! ## One key -/

theorem action?_ofChar {c : Char} (hc : c ≠ 'q') :
    (Command.ofChar c).action? = Action.ofChar? c ∧ Command.ofChar c ≠ .quit := by
  rw [Command.ofChar, if_neg hc]
  split
  · rename_i hh
    rw [hh]
    decide
  · cases Action.ofChar? c <;> simp [Command.action?]

/-- **A common key asks for the same action in both front ends**, and does not quit the dialogue. -/
theorem Key.IsCommon.action? {k : Key} (h : k.IsCommon) :
    (Command.ofKey k).action? = Panel.action? k ∧ Command.ofKey k ≠ .quit := by
  obtain ⟨code, control, alt, shift⟩ := k
  obtain ⟨hcontrol, halt, ⟨hq, -⟩, -⟩ := h
  simp only at hcontrol halt hq
  subst hcontrol halt
  cases code with
  | char c => simpa [Command.ofKey, Panel.action?] using action?_ofChar (by simpa using hq)
  | enter | tab => exact ⟨rfl, by simp only [Command.ofKey]; decide⟩
  | function n =>
    simp only [Command.ofKey, Panel.action?]
    cases (KeyCode.function n).editing? <;> simp [Command.action?]
  | backspace | delete | escape | up | down | left | right | pageUp | pageDown | home | lineEnd
  | insert => simp [Command.ofKey, Command.action?, Panel.action?, KeyCode.editing?]

namespace Panel

/-- Whether the panel takes keys for its session: it is not quitting, and its help is closed. -/
structure Working (p : Panel) : Prop where
  quitting : p.quitting = false
  helpOpen : p.helpOpen = false

theorem Working.press {p : Panel} (h : p.Working) {k : Key} (hk : k.IsCommon) :
    (p.press k).Working := by
  obtain ⟨hquitting, hopen⟩ := h
  rw [Panel.press, hopen, if_neg Bool.false_ne_true]
  cases action? k with
  | some a => exact ⟨hquitting, rfl⟩
  | none =>
    -- Of the keys that control the panel only the one for the details is left.
    simp only [control]
    split
    · rw [hk.control]
      exact ⟨hquitting, hopen⟩
    · rename_i hcode
      exact absurd hcode hk.ne_quit.1
    · rename_i hcode
      exact absurd hcode hk.ne_quit.2
    · rename_i hcode
      exact absurd hcode hk.ne_help
    · exact ⟨hquitting, hopen⟩
    · exact ⟨hquitting, hopen⟩

/-! ## Any number of keys -/

/-- The panel goes on working, and its session runs through the actions that the keys ask for in a
dialogue. -/
theorem Working.pressAll {p : Panel} (h : p.Working) {keys : List Key}
    (hkeys : ∀ k ∈ keys, k.IsCommon) :
    (p.pressAll keys).Working ∧ (p.pressAll keys).session = p.session.run (actionsOf keys) := by
  induction keys generalizing p with
  | nil => exact ⟨h, rfl⟩
  | cons k keys ih =>
    simp only [List.mem_cons, forall_eq_or_imp] at hkeys
    obtain ⟨hk, hrest⟩ := hkeys
    obtain ⟨hworking, hsession⟩ := ih (h.press hk) hrest
    refine ⟨hworking, ?_⟩
    calc (p.pressAll (k :: keys)).session
        = (p.session.run (Panel.action? k).toList).run (actionsOf keys) := by
          rw [← session_press h.helpOpen]
          exact hsession
      _ = p.session.run (actionsOf (k :: keys)) := by
          rw [actionsOf_cons, Session.run_append, hk.action?.1]

end Panel

/-- **The two front ends agree.** After the same keys, none of which quits a front end or opens the
help, the panel and the dialogue have the same session: both are working, and the dialogue goes on
from that session, whatever comes next. -/
theorem front_ends_agree (limit : Nat) {keys : List Key} (hkeys : ∀ k ∈ keys, k.IsCommon)
    (rest : List Input) :
    let s := Session.start limit
    let p := (Panel.start limit).pressAll keys
    p.session = sessionAfter s keys ∧ p.Working ∧
      transcript limit true (keys.map .key ++ rest) =
        (converse p.session rest).following (.banner :: .ofSession s :: answers s keys) := by
  intro s p
  obtain ⟨hworking, hsession⟩ : p.Working ∧ p.session = s.run (actionsOf keys) :=
    Panel.Working.pressAll ⟨rfl, rfl⟩ hkeys
  have hagree : p.session = sessionAfter s keys := by rw [hsession, sessionAfter_eq_run]
  refine ⟨hagree, hworking, ?_⟩
  have hcontinue := converse_append (fun k hk => (hkeys k hk).action?.2) s rest
  rw [transcript_rawMode, hcontinue, hagree, Transcript.following_following]
  rfl

/-- `9 * 2`, Enter and F7, then `h`, Tab, F2 and Page Up, which mean different things or nothing,
`- 8` and Enter, with a key that quits the dialogue behind them. -/
theorem front_ends_agree_after_details :
    let keys : List Key := [⟨.char '9', false, false, false⟩, ⟨.char '*', false, false, true⟩,
      ⟨.char '2', false, false, false⟩, ⟨.enter, false, false, false⟩,
      ⟨.function 7, false, false, false⟩, ⟨.char 'h', false, false, false⟩,
      ⟨.tab, false, false, false⟩, ⟨.function 2, false, false, false⟩,
      ⟨.pageUp, false, false, false⟩, ⟨.char '-', false, false, false⟩,
      ⟨.char '8', false, false, false⟩, ⟨.enter, false, false, false⟩]
    let rest : List Input := [.key ⟨.char 'q', false, false, false⟩]
    let s := Session.start 1
    let p := (Panel.start 1).pressAll keys
    (∀ k ∈ keys, k.IsCommon) ∧ p.detailsOpen = true ∧ p.session.entry = ['1', '0'] ∧
      p.session = sessionAfter s keys ∧ p.Working ∧
      transcript 1 true (keys.map .key ++ rest) =
        (converse p.session rest).following (.banner :: .ofSession s :: answers s keys) := by
  intro keys rest s p
  have hkeys : ∀ k ∈ keys, k.IsCommon := by decide
  have hdetails : p.detailsOpen = true := by decide +kernel
  have hentry : p.session.entry = ['1', '0'] := by decide +kernel
  exact ⟨hkeys, hdetails, hentry, front_ends_agree 1 hkeys rest⟩

end PocketCalc
