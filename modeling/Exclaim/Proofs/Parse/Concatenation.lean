import Mathlib
import Exclaim.Proofs.Parse.Ends
import Exclaim.Proofs.Parse.Layout
import Exclaim.Proofs.Parse.Replay.Statement
import Exclaim.Proofs.Parse.StockGrammar

/-! Programs one behind the other. Behind a program that is read as a whole, another one is read as
if it stood alone, unless it starts with the `else` of a last conditional. -/
namespace Exclaim
namespace Parse

section Markers
variable {α β : Type} {g : Grammar} {p : Parse Statement} {s s₁ : ParseState}

lemma ends_true (p : Parse α) :
    Ends (fun _ => True) p (fun _ _ => True) (fun _ _ => True) := by
  intro s _
  rcases p.run s with ⟨_ | _, _⟩ <;> trivial

/-- Only what comes last decides about the value. -/
lemma ends_after {p : Parse α} {f : α → Parse β} {Q : β → ParseState → Prop}
    (h : ∀ a, Ends (fun _ => True) (f a) Q fun _ _ => True) :
    Ends (fun _ => True) (p >>= f) Q fun _ _ => True := (ends_true p).bind h

/-- Only the rule for the end of the file gives its marker. -/
lemma ruled_ne_endOfFile {rule : StatementRule} (h : rule ≠ .endOfFile) :
    Ends (fun _ => True) (ruled g p rule) (fun a _ => a ≠ .endOfFile) fun _ _ => True := by
  cases rule with
  | variableDeclaration =>
    unfold ruled variableDeclaration
    refine ends_after fun _ => ends_after fun _ => ends_after fun _ => ?_
    refine ends_after fun _ => ends_after fun _ => ends_after fun _ => ?_
    exact ends_pure fun _ _ => nofun
  | functionDeclaration =>
    unfold ruled functionDeclaration
    refine ends_after fun _ => ends_after fun _ => ends_after fun _ => ends_after fun _ => ?_
    refine ends_after fun _ => ends_after fun _ => ends_after fun _ => ends_after fun _ => ?_
    exact ends_after fun _ => ends_pure fun _ _ => nofun
  | returning =>
    unfold ruled returning
    refine ends_after fun _ => ends_after fun _ => ends_after fun _ => ?_
    exact ends_pure fun _ _ => nofun
  | conditional =>
    exact ends_after fun _ => ends_after fun _ => ends_pure fun _ _ => nofun
  | when => exact ends_after fun _ => ends_pure fun _ _ => nofun
  | block => exact ends_after fun _ => ends_pure fun _ _ => nofun
  | endOfFile => exact absurd rfl h

/-- The marker for the end of the file is read at the end of the file. -/
lemma kind_next_of_endOfFile (h : (parseStatement .stock).run s = (.ok .endOfFile, s₁)) :
    s.cursor.next.kind = .endOfFile := by
  by_contra hk
  unfold parseStatement at h
  rw [run_budget_bind, run_statement] at h
  have hne : Ends (fun _ => True)
      (started .stock (statement .stock (s.cursor.remaining + 1)) s.cursor.next
        (Grammar.stock.statement? s.cursor.next))
      (fun a _ => a ≠ .endOfFile) fun _ _ => True := by
    cases hrule : Grammar.stock.statement? s.cursor.next with
    | some rule =>
      refine ruled_ne_endOfFile ?_
      rintro rfl
      exact hk (Grammar.kind_of_statement?_endOfFile hrule)
    | none =>
      unfold started
      by_cases hc : s.cursor.next.kind = .closeCurly
      · simp only [if_pos hc]
        exact ends_pure fun _ _ => nofun
      · simp only [if_neg hc]
        exact ends_after fun _ => ends_pure fun _ _ => nofun
  have hmarker := hne { s with cursor := s.cursor.skipLayout } trivial
  rw [h] at hmarker
  exact hmarker rfl

/-- Among tokens without an end of the file, its marker comes when all of them are used up. -/
lemma ahead_of_endOfFile (h : (parseStatement .stock).run s = (.ok .endOfFile, s₁))
    (hbody : ∀ t ∈ s.cursor.body, t.kind ≠ .endOfFile) : s.cursor.ahead = [] := by
  have hnext := kind_next_of_endOfFile h
  cases hc : s.cursor.ahead with
  | nil => rfl
  | cons t ts =>
    have hmem : t ∈ s.cursor.body := Cursor.mem_body_of_mem_ahead (by simp [hc])
    rw [Cursor.next_of_ahead_cons hc] at hnext
    exact absurd hnext (hbody t hmem)

/-- At the end of a block the cursor stays before the bracket. -/
lemma facing_of_endOfBlock (h : (parseStatement g).run s = (.ok .endOfBlock, s₁)) :
    s₁.cursor.Facing := by
  have hm := alike_parseStatement g s s ⟨⟨rfl, rfl, Iff.rfl⟩, Nat.lt_succ_self _⟩
  rw [h] at hm
  exact (hm.facing rfl).1

end Markers

section Runs
variable {g g' : Grammar} {k n n' : Nat} {s s₁ : ParseState} {a : Statement}

lemma run_programBody_endOfFile (h : (parseStatement g).run s = (.ok .endOfFile, s₁)) :
    (programBody g (n + 1)).run s = (.ok [], s₁) := by
  rw [programBody, run_bind, h]
  rfl

lemma run_programBody_endOfBlock (h : (parseStatement g).run s = (.ok .endOfBlock, s₁)) :
    (programBody g (n + 1)).run s = (.error (.strayCloseBrace s₁.cursor.next), s₁) := by
  rw [programBody, run_bind, h, ← (facing_of_endOfBlock h).current_eq]
  rfl

lemma run_programBody_cons (h : (parseStatement g).run s = (.ok a, s₁))
    (ha : a.isSentinel = false) :
    (programBody g (n + 1)).run s = ((a :: ·) <$> programBody g n).run s₁ := by
  rw [programBody, run_bind, h, map_eq_pure_bind]
  cases a with
  | endOfFile => exact absurd ha (by decide)
  | endOfBlock => exact absurd ha (by decide)
  | _ => rfl

lemma run_programBody_error {e : ParseError} (h : (parseStatement g).run s = (.error e, s₁)) :
    (programBody g (n + 1)).run s = (.error e, s₁) := by
  rw [programBody, run_bind, h]

lemma run_map {α β : Type} (f : α → β) (p : Parse α) (s : ParseState) :
    (f <$> p).run s = ((p.run s).1.map f, (p.run s).2) := by
  rw [map_eq_pure_bind, run_bind]
  rcases p.run s with ⟨_ | _, _⟩ <;> rfl

/-- Without a fork a program is repeated, and so is its failure. -/
lemma follows_programBody {m : Nat} {known : Token → Prop} (hg : Agrees (.level m known) g g')
    (hn : k ≤ n) (hn' : k ≤ n') {s s' : ParseState} (hk : s.cursor.ahead.length < k)
    (hb : Beside (.level m known) s.cursor s'.cursor) :
    Follows (.level m known) (fun _ => False) ((programBody g n).run s)
      ((programBody g' n').run s') := by
  induction k generalizing n n' s s' with
  | zero => exact absurd hk (Nat.not_lt_zero _)
  | succ k ih =>
    obtain ⟨n, rfl⟩ := Nat.exists_eq_add_one_of_ne_zero (Nat.ne_zero_of_lt hn)
    obtain ⟨n', rfl⟩ := Nat.exists_eq_add_one_of_ne_zero (Nat.ne_zero_of_lt hn')
    have hcovers {α : Type} (still : α → Prop) (x : α) (c : Cursor) :
        (Course.level m known).Covers still x c := .inl (Nat.zero_le _)
    have hstatement : Replays (.level m known) Anywhere (k + 1) width (Settled False)
        (parseStatement g) (parseStatement g') := replays_parseStatement hg False.elim
    have hfollows := hstatement.follows s s' hk trivial trivial hb
    rcases hrun : (parseStatement g).run s with ⟨e | a, s₁⟩
    · rw [hrun] at hfollows
      rw [run_programBody_error hrun]
      rintro _ _ ⟨rfl, rfl⟩
      obtain ⟨s₁', hrun'⟩ := hfollows m known rfl
      exact ⟨s₁', run_programBody_error hrun'⟩
    · rw [hrun] at hfollows
      obtain ⟨s₁', hrun', hb₁⟩ := hfollows (hcovers _ _ _)
      have hshrinks := hstatement.shrinks s s₁ a hk hrun
      by_cases hfile : a = .endOfFile
      · subst hfile
        rw [run_programBody_endOfFile hrun]
        exact fun _ => ⟨s₁', run_programBody_endOfFile hrun', hb₁⟩
      by_cases hblock : a = .endOfBlock
      · subst hblock
        rw [run_programBody_endOfBlock hrun]
        intro _ _ _
        refine ⟨s₁', ?_⟩
        rw [run_programBody_endOfBlock hrun', hb₁.next_eq (Nat.zero_le _)]
        rfl
      have ha := isSentinel_eq_false hfile hblock
      rw [width_of_not_isSentinel ha] at hshrinks
      have hrest := ih (Nat.le_of_succ_le_succ hn) (Nat.le_of_succ_le_succ hn')
        (Nat.lt_of_lt_of_le hshrinks (Nat.le_of_lt_succ hk)) hb₁
      rw [run_programBody_cons hrun ha, run_programBody_cons hrun' ha, run_map, run_map]
      revert hrest
      rcases (programBody g n).run s₁ with ⟨e | body, s₂⟩
      · intro hrest _ _ hT
        obtain ⟨s₂', hrun₂⟩ := hrest _ _ hT
        exact ⟨s₂', by rw [hrun₂]; rfl⟩
      · intro hrest _
        obtain ⟨s₂', hrun₂, hb₂⟩ := hrest (hcovers _ _ _)
        exact ⟨s₂', by rw [hrun₂]; rfl, hb₂⟩

/-- A program that is read up to the fork as a whole is read again behind it, and then it goes on
with whatever comes there. -/
lemma run_programBody_fork {near far : Cursor} {shorter : near.ahead.length ≤ far.ahead.length}
    (hnear : near.ahead = []) (hbody : ∀ t ∈ near.body, t.kind ≠ .endOfFile)
    (helse : (Course.fork near far shorter).Misses (.words ["else"])) {s s' s₁ : ParseState}
    {A : Block} (hb : Beside (.fork near far shorter) s.cursor s'.cursor)
    (hn' : s'.cursor.ahead.length < n') (hrun : (programBody .stock n).run s = (.ok A, s₁)) :
    ∃ m s₂, (programBody .stock n').run s' = ((A ++ ·) <$> programBody .stock m).run s₂ ∧
      Beside (.fork near far shorter) near s₂.cursor ∧ far.ahead.length < m := by
  induction n generalizing n' s s' A with
  | zero => cases hrun
  | succ n ih =>
    obtain ⟨n', rfl⟩ := Nat.exists_eq_add_one_of_ne_zero (Nat.ne_zero_of_lt hn')
    have hstatement : Replays (.fork near far shorter) Anywhere (s.cursor.ahead.length + 1) width
        (Settled ((Course.fork near far shorter).Misses (.words ["else"]))) (parseStatement .stock)
        (parseStatement .stock) := replays_parseStatement (agrees_refl _ _) id
    rcases hs : (parseStatement .stock).run s with ⟨e | a, s₂⟩
    · rw [run_programBody_error hs] at hrun
      cases hrun
    by_cases hfile : a = .endOfFile
    · -- The first run is at its end, so the second one is at the fork.
      subst hfile
      rw [run_programBody_endOfFile hs] at hrun
      cases hrun
      have hnil : s.cursor.ahead = [] := ahead_of_endOfFile hs (by rwa [hb.body_near])
      refine ⟨n' + 1, s', ?_, hb.at_near (hnil.trans hnear.symm), ?_⟩
      · rw [run_map]
        rcases (programBody .stock (n' + 1)).run s' with ⟨_ | _, _⟩ <;> rfl
      · have hlen := hb.length_fork
        rw [hnil, hnear] at hlen
        simp only [List.length_nil] at hlen
        omega
    by_cases hblock : a = .endOfBlock
    · subst hblock
      rw [run_programBody_endOfBlock hs] at hrun
      cases hrun
    have ha := isSentinel_eq_false hfile hblock
    have hfollows := hstatement.follows s s' (Nat.lt_succ_self _) trivial trivial hb
    have hshrinks := hstatement.shrinks s s₂ a (Nat.lt_succ_self _) hs
    rw [hs] at hfollows
    rw [width_of_not_isSentinel ha] at hshrinks
    obtain ⟨s₂', hs', hb₂⟩ := hfollows (.inr ⟨by rw [Course.border, hnear]; simp, ha, helse⟩)
    have hroom : s₂'.cursor.ahead.length < n' := by
      have hlen := hb.length_fork
      have hlen₂ := hb₂.length_fork
      omega
    rw [run_programBody_cons hs ha, run_map] at hrun
    rcases hrest : (programBody .stock n).run s₂ with ⟨e | B, s₃⟩
    · rw [hrest] at hrun
      cases hrun
    rw [hrest] at hrun
    cases hrun
    obtain ⟨m, s₄, hrun₄, hb₄, hm⟩ := ih hb₂ hroom hrest
    refine ⟨m, s₄, ?_, hb₄, hm⟩
    rw [run_programBody_cons hs' ha, run_map, hrun₄, run_map, run_map]
    rcases (programBody .stock m).run s₄ with ⟨_ | _, _⟩ <;> rfl

end Runs

section Start
variable {before rest : List Token} {last last' : Token}

/-- The place behind some tokens and before others. -/
def behind (before rest : List Token) (last : Token) (h : last.kind = .endOfFile) : Cursor :=
  { body := before ++ rest, last, last_kind := h, position := before.length }

lemma upcoming_behind (h : last.kind = .endOfFile) :
    (behind before rest last h).upcoming = rest := by
  simp [behind, Cursor.upcoming]

lemma ahead_behind (h : last.kind = .endOfFile) :
    (behind before rest last h).ahead = rest.filter (!·.kind.isIgnorable) := by
  rw [Cursor.ahead, upcoming_behind]

lemma not_ended_behind (h : last.kind = .endOfFile) : ¬ (behind before rest last h).Ended := by
  simp only [behind, Cursor.Ended, Cursor.size, List.length_append]
  omega

lemma next_behind (h : last.kind = .endOfFile) :
    (behind before rest last h).next = (rest.filter (!·.kind.isIgnorable)).head?.getD last := by
  rw [Cursor.next, ahead_behind]
  rfl

lemma cursor_ofTokens (h : last.kind = .endOfFile) :
    (ParseState.ofTokens (rest ++ [last])).cursor = behind [] rest last h :=
  Cursor.ofTokens_append h

/-- Tokens in front move all places by their number. -/
lemma beside_behind (h : last.kind = .endOfFile) {c : Cursor}
    (hbody : c.body = before ++ rest) (hlast : c.last = last)
    (hahead : c.ahead = rest.filter (!·.kind.isIgnorable)) (hend : ¬ c.Ended) :
    Beside (.level before.length fun _ => True) (behind [] rest last h) c := by
  have hcount : (behind before rest last h).layoutCount = (behind [] rest last h).layoutCount := by
    rw [Cursor.layoutCount, Cursor.layoutCount, upcoming_behind, upcoming_behind]
  have hplace : c.skipLayout.position = (behind before rest last h).skipLayout.position := by
    rcases Nat.le_total c.position before.length with hle | hle
    · have hleads : c.Leads (behind before rest last h) := ⟨hbody.symm, hlast.symm, hle⟩
      refine (hleads.position_skipLayout ?_ (not_ended_behind h)).symm
      rw [ahead_behind, hahead]
    · have hleads : (behind before rest last h).Leads c := ⟨hbody, hlast, hle⟩
      refine hleads.position_skipLayout ?_ hend
      rw [ahead_behind, hahead]
  have hshift : (behind before rest last h).skipLayout.position =
      (behind [] rest last h).skipLayout.position + before.length := by
    rw [Cursor.position_skipLayout, Cursor.position_skipLayout, hcount]
    simp only [behind, List.length_nil]
    omega
  refine .level ?_ hlast (hplace.trans hshift) fun _ _ => trivial
  rw [Cursor.upcoming, Cursor.upcoming, hplace, hshift]
  simp [behind, hbody, List.drop_append]

end Start

/-- No `else` comes at the fork if the second program does not start with one. -/
lemma misses_else {a b : List Token} {lastA last : Token} (hA : lastA.kind = .endOfFile)
    (h : last.kind = .endOfFile)
    (helse : startsWith ["else"] (b.filter (!·.kind.isIgnorable)) = false)
    (shorter : (behind a [] lastA hA).ahead.length ≤ (behind a b last h).ahead.length) :
    (Course.fork (behind a [] lastA hA) (behind a b last h) shorter).Misses (.words ["else"]) := by
  have hend (t : Token) (ht : t.kind = .endOfFile) : (Expected.words ["else"]).isMet t = false := by
    simp [Expected.isMet, ht]
  refine ⟨?_, ?_⟩
  · rw [next_behind]
    exact hend lastA hA
  · rw [next_behind]
    cases hb : b.filter (!·.kind.isIgnorable) with
    | nil => exact hend last h
    | cons t ts =>
      rw [hb] at helse
      exact helse

/-- Two starts before the same tokens, of which one comes to its end and the other one goes on. -/
lemma beside_start {a b : List Token} {lastA last : Token} (hA : lastA.kind = .endOfFile)
    (h : last.kind = .endOfFile)
    (shorter : (behind a [] lastA hA).ahead.length ≤ (behind a b last h).ahead.length) :
    Beside (.fork (behind a [] lastA hA) (behind a b last h) shorter) (behind [] a lastA hA)
      (behind [] (a ++ b) last h) := by
  refine .fork (a.filter (!·.kind.isIgnorable)) ?_ ?_ ?_ rfl rfl rfl (not_ended_behind h)
  · rw [ahead_behind, ahead_behind, List.filter_nil, List.append_nil]
  · rw [ahead_behind, ahead_behind, List.filter_append]
  · simp [behind]

/-- Behind a program that is read as a whole, the parse goes on as it starts with the rest alone. -/
lemma run_programBody_behind {a b : List Token} {lastA last : Token}
    (hA : lastA.kind = .endOfFile) (h : last.kind = .endOfFile)
    (ha : ∀ t ∈ a, t.kind ≠ .endOfFile)
    (helse : startsWith ["else"] (b.filter (!·.kind.isIgnorable)) = false) {s s' s₁ : ParseState}
    {n n' : Nat} {A : Block} (hs : s.cursor = behind [] a lastA hA)
    (hs' : s'.cursor = behind [] (a ++ b) last h) (hn' : s'.cursor.ahead.length < n')
    (hrun : (programBody .stock n).run s = (.ok A, s₁)) :
    ∃ m s₂, (programBody .stock n').run s' = ((A ++ ·) <$> programBody .stock m).run s₂ ∧
      Beside (.level a.length fun _ => True) (behind [] b last h) s₂.cursor ∧
      (behind [] b last h).ahead.length < m := by
  have hnear : (behind a [] lastA hA).ahead = [] := ahead_behind hA
  have hshorter : (behind a [] lastA hA).ahead.length ≤ (behind a b last h).ahead.length := by
    rw [hnear]
    exact Nat.zero_le _
  have hstart := beside_start hA h hshorter
  rw [← hs, ← hs'] at hstart
  obtain ⟨m, s₂, hrun₂, hb₂, hm⟩ := run_programBody_fork hnear (by simpa [behind] using ha)
    (misses_else hA h helse hshorter) hstart hn' hrun
  refine ⟨m, s₂, hrun₂, ?_, ?_⟩
  · cases hb₂ with
    | fork common ahead ahead' _ body' _ last' live =>
      obtain rfl : common = [] := List.self_eq_append_left.1 ahead
      exact beside_behind h body' last' (ahead'.trans (ahead_behind h)) live
  · rw [ahead_behind] at hm ⊢
    exact hm

lemma parseTokens_eq (g : Grammar) (tokens : List Token) :
    parseTokens g tokens =
      ((programBody g ((ParseState.ofTokens tokens).cursor.remaining + 2)).run
        (.ofTokens tokens)).1 := by
  unfold parseTokens parseProgram
  rw [run_budget_bind, run_bind]
  rcases (programBody g ((ParseState.ofTokens tokens).cursor.remaining + 2)).run _ with ⟨_ | _, _⟩
  · rfl
  · rfl

end Parse

/-- A program behind another one. The tokens `a` are read on their own as the program `A`. Then `b`
is read behind them as it is read alone: its program comes behind `A`, and its failure is the same
but for the index of a token. -/
theorem parseTokens_append {a b : List Token} {lastA last : Token}
    (hlastA : lastA.kind = .endOfFile) (hlast : last.kind = .endOfFile)
    (ha : ∀ t ∈ a, t.kind ≠ .endOfFile)
    (helse : Parse.startsWith ["else"] (b.filter (!·.kind.isIgnorable)) = false) {A : Block}
    (hA : parseTokens .stock (a ++ [lastA]) = .ok A) :
    (∀ B, parseTokens .stock (b ++ [last]) = .ok B →
      parseTokens .stock (a ++ b ++ [last]) = .ok (A ++ B)) ∧
    ∀ e, parseTokens .stock (b ++ [last]) = .error e →
      parseTokens .stock (a ++ b ++ [last]) = .error (e.shift a.length) := by
  have hroom (s : ParseState) : s.cursor.ahead.length < s.cursor.remaining + 2 := by
    have hle := s.cursor.length_ahead_le
    omega
  rw [Parse.parseTokens_eq] at hA
  obtain ⟨m, s₂, hrun, hbeside, hm⟩ := Parse.run_programBody_behind hlastA hlast ha helse
    (Parse.cursor_ofTokens hlastA) (Parse.cursor_ofTokens hlast) (hroom _) (Prod.ext hA rfl)
  rw [← Parse.cursor_ofTokens hlast] at hbeside hm
  have hfollows := Parse.follows_programBody (Parse.agrees_refl _ .stock) (hroom _) hm
    (Nat.lt_succ_self _) hbeside
  rw [Parse.parseTokens_eq, Parse.parseTokens_eq, hrun, Parse.run_map]
  revert hfollows
  generalize (Parse.programBody .stock _).run (.ofTokens (b ++ [last])) = outcome
  intro hfollows
  rcases outcome with ⟨e | B, s₃⟩
  · obtain ⟨s₃', hrun'⟩ := hfollows _ _ rfl
    rw [hrun']
    refine ⟨fun B hB => absurd hB (by simp), fun e' he => ?_⟩
    rw [← Except.error.inj he]
    rfl
  · obtain ⟨s₃', hrun', -⟩ := hfollows (.inl (Nat.zero_le _))
    rw [hrun']
    refine ⟨fun B' hB => ?_, fun e he => absurd he (by simp)⟩
    rw [← Except.ok.inj hB]
    rfl

/-- Behind `if (x) { y! }` stands `x!` on a line of its own, or a `!` alone. -/
theorem parseTokens_append_conditional :
    let mark (kind : TokenKind) : Token := .plain kind ""
    let x : Token := .plain .identifier "x"
    let a := [.plain .identifier "if", mark .openParen, x, mark .closeParen, mark .whiteSpace,
      mark .openCurly, .plain .identifier "y", mark .exclamation, mark .closeCurly]
    let last := mark .endOfFile
    ∃ A, parseTokens .stock (a ++ [last]) = .ok A ∧ A.map Statement.kind = [.ifStatement] ∧
      parseTokens .stock (a ++ [mark .lineBreak, x, mark .exclamation] ++ [last]) =
        .ok (A ++ [.expression (.symbol "x")]) ∧
      parseTokens .stock (a ++ [mark .lineBreak, mark .exclamation] ++ [last]) =
        .error (.noOpening (mark .exclamation) (1 + 9)) := by
  intro mark x a last
  have ha : ∀ t ∈ a, t.kind ≠ .endOfFile := by decide +revert
  have hlast : last.kind = .endOfFile := rfl
  have hkinds : (parseTokens .stock (a ++ [last])).toOption.map (List.map Statement.kind) =
      some [.ifStatement] := by decide +kernel +revert
  have hB : parseTokens .stock ([mark .lineBreak, x, mark .exclamation] ++ [last]) =
      .ok [.expression (.symbol "x")] := by cbv
  have he : parseTokens .stock ([mark .lineBreak, mark .exclamation] ++ [last]) =
      .error (.noOpening (mark .exclamation) 1) := by cbv
  cases hA : parseTokens .stock (a ++ [last]) with
  | error e => simp [hA, Except.toOption] at hkinds
  | ok A =>
    have hread := parseTokens_append hlast hlast ha (b := [mark .lineBreak, x, mark .exclamation])
      rfl hA
    have hfail := parseTokens_append hlast hlast ha (b := [mark .lineBreak, mark .exclamation])
      rfl hA
    refine ⟨A, rfl, ?_, hread.1 _ hB, hfail.2 _ he⟩
    simpa [hA, Except.toOption] using hkinds

end Exclaim
