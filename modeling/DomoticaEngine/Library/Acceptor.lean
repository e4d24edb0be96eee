import DomoticaEngine.Library.Runs

/-!
A deterministic acceptor of the prefixes of the words of a language.
-/

set_option autoImplicit false

namespace Acceptor
open Runs

variable {ε Q : Type}

structure Accepts (next : ε → Q → Option Q) (history : Q → List ε) (L : List ε → Prop) (start : Q) :
    Prop where
  nil : history start = []
  step : ∀ e q q' w, next e q = some q' → L (history q' ++ w) → L (history q ++ e :: w)
  live : ∀ q, ∃ w, L (history q ++ w)
  word : ∀ w, L w → (after next w start).isSome

variable {next : ε → Q → Option Q} {history : Q → List ε} {L : List ε → Prop} {start : Q}

theorem after_prefix {w v : List ε} {q : Q} (h : w <+: v) (hv : (after next v q).isSome) :
    (after next w q).isSome := by
  obtain ⟨rest,rfl⟩ := h
  obtain ⟨q',hq'⟩ := Option.isSome_iff_exists.mp hv
  obtain ⟨q₁,hq₁,-⟩ := after_append.mp hq'
  exact Option.isSome_of_eq_some hq₁

theorem Accepts.follow (h : Accepts next history L start) {w v : List ε} {q q' : Q}
    (hrun : after next w q = some q') (hv : L (history q' ++ v)) : L (history q ++ (w ++ v)) := by
  induction w generalizing q with
  | nil =>
    cases hrun
    exact hv
  | cons e w ih =>
    obtain ⟨q₁,hstep,hrest⟩ := after_cons.mp hrun
    exact h.step e q q₁ (w ++ v) hstep (ih hrest)

theorem Accepts.prefix_iff (h : Accepts next history L start) {w : List ε} :
    (∃ v, L v ∧ w <+: v) ↔ (after next w start).isSome := by
  constructor
  · rintro ⟨v,hv,hbegins⟩
    exact after_prefix hbegins (h.word v hv)
  · intro hrun
    obtain ⟨q,hq⟩ := Option.isSome_iff_exists.mp hrun
    obtain ⟨v,hv⟩ := h.live q
    have hword := h.follow hq hv
    rw [h.nil,List.nil_append] at hword
    exact ⟨w ++ v,hword,List.prefix_append w v⟩

end Acceptor
