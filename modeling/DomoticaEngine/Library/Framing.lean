import Mathlib.Data.List.Basic

/-!
Messages that end with a stop, sent as one stream, and a reader that takes a message from
each piece in which the stream arrives.
-/

set_option autoImplicit false

namespace Framing

variable {α : Type}

structure Message (α : Type) where
  text : List α
  stop : α
  deriving DecidableEq, Repr

def Message.sent (m : Message α) : List α := m.text ++ [m.stop]

def stream (messages : List (Message α)) : List α := messages.flatMap Message.sent

variable (isStop : α → Bool)

structure Message.Valid (m : Message α) : Prop where
  text : ∀ c ∈ m.text, isStop c = false
  stop : isStop m.stop = true

def Starts (take : List α → List α) : Prop :=
  ∀ read, take read ≠ [] → (∀ c ∈ take read, isStop c = false) → take read <+: read

variable {isStop} {take : List α → List α}

theorem stream_rest {messages : List (Message α)} {r rest : List α}
    (h : r ++ rest = stream messages) :
    rest = [] ∨ ∃ before m after u, messages = before ++ m :: after ∧
      rest = u ++ m.stop :: stream after ∧ u <:+ m.text ∧
      (r ≠ [] → before ≠ [] ∨ u.length < m.text.length) := by
  induction messages generalizing r with
  | nil =>
    left
    simp only [stream,List.flatMap_nil,List.append_eq_nil_iff] at h
    exact h.2
  | cons m messages ih =>
    have hstream : stream (m :: messages) = m.text ++ m.stop :: stream messages := by
      simp [stream,Message.sent]
    rw [hstream] at h
    rcases List.append_eq_append_iff.mp h with ⟨u,htext,hrest⟩ | ⟨more,rfl,hmore⟩
    · refine .inr ⟨[],m,messages,u,rfl,hrest,⟨r,htext.symm⟩,fun hr => .inr ?_⟩
      have hpos := List.length_pos_iff.mpr hr
      rw [htext,List.length_append]
      omega
    · cases more with
      | nil => exact .inr ⟨[],m,messages,[],rfl,hmore.symm,List.nil_suffix,fun hr => .inr (by
          simpa [List.length_pos_iff] using hr)⟩
      | cons c more =>
        simp only [List.cons_append,List.cons.injEq] at hmore
        rcases ih hmore.2.symm with hnil | ⟨before,m',after,u,rfl,hrest,hu,-⟩
        · exact .inl hnil
        · exact .inr ⟨m :: before,m',after,u,rfl,hrest,hu,fun _ => .inl (by simp)⟩

theorem prefix_before_stop {text u rest : List α} {t : α} (ht : isStop t = true)
    (htext : ∀ c ∈ text, isStop c = false) (h : text <+: u ++ t :: rest) : text <+: u := by
  obtain ⟨more,hmore⟩ := h
  rcases List.append_eq_append_iff.mp hmore with ⟨u',hu,-⟩ | ⟨c,hc,hrest⟩
  · exact ⟨u',hu.symm⟩
  · cases c with
    | nil => exact ⟨[],by simpa using hc⟩
    | cons d c =>
      simp only [List.cons_append,List.cons.injEq] at hrest
      have hstop := htext t (by rw [hc,hrest.1]; simp)
      rw [ht] at hstop
      cases hstop

theorem text_before_stop (htake : Starts isStop take) {r more u rest : List α} {m : Message α}
    {t : α} (hvalid : m.Valid isStop) (hne : m.text ≠ []) (hr : take r = m.text)
    (ht : isStop t = true) (hflat : r ++ more = u ++ t :: rest) : m.text <+: u := by
  have hstarts := htake r (by rw [hr]; exact hne) (by rw [hr]; exact hvalid.text)
  rw [hr] at hstarts
  exact prefix_before_stop ht hvalid.text (hstarts.trans ⟨more,hflat⟩)

theorem reads_nil {reads : List (List α)} (hreads : ∀ r ∈ reads, r ≠ [])
    (h : reads.flatten = []) : reads = [] := by
  cases reads with
  | nil => rfl
  | cons r reads =>
    simp only [List.flatten_cons,List.append_eq_nil_iff] at h
    exact absurd h.1 (hreads r (by simp))

def Readable (isStop : α → Bool) (messages : List (Message α)) : Prop :=
  ∀ m ∈ messages, m.Valid isStop ∧ m.text ≠ []

/-- A reader that is in the text of a message, or in front of it, but still has to give that
message and earlier ones, does not get them from the rest of the stream. -/
theorem ahead_fails (htake : Starts isStop take) {reads : List (List α)}
    (hreads : ∀ r ∈ reads, r ≠ []) {before after : List (Message α)} {m : Message α} {u : List α}
    {t : α} (ht : isStop t = true) (hu : u.length ≤ m.text.length)
    (hbehind : before ≠ [] ∨ u.length < m.text.length)
    (hmessages : Readable isStop (before ++ m :: after))
    (hflat : reads.flatten = u ++ t :: stream after) :
    reads.map take ≠ (before ++ m :: after).map Message.text := by
  induction reads generalizing before after m u t with
  | nil => simp at hflat
  | cons r reads ih =>
    intro htexts
    have hreads' : ∀ r ∈ reads, r ≠ [] := fun r hr => hreads r (by simp [hr])
    cases hall : before ++ m :: after with
    | nil => simp at hall
    | cons first others =>
      rw [hall] at htexts
      simp only [List.map_cons,List.cons.injEq] at htexts
      obtain ⟨hfirst,hrest⟩ := htexts
      obtain ⟨hvalid,hne⟩ := hmessages first (by rw [hall]; simp)
      rw [List.flatten_cons] at hflat
      -- The text of the first message fits into what is left of the message at hand.
      have hlength := (text_before_stop htake hvalid hne hfirst ht hflat).length_le
      have hpos := List.length_pos_iff.mpr hne
      cases before with
      | nil =>
        simp only [List.nil_append,List.cons.injEq] at hall
        obtain ⟨rfl,-⟩ := hall
        rcases hbehind with hbehind | hbehind
        · exact hbehind rfl
        · omega
      | cons b before =>
        simp only [List.cons_append,List.cons.injEq] at hall
        obtain ⟨rfl,rfl⟩ := hall
        have hmessages' : Readable isStop (before ++ m :: after) :=
          fun m' hm' => hmessages m' (by
            simp only [List.cons_append]
            exact List.mem_cons_of_mem _ hm')
        have hr := List.length_pos_iff.mpr (hreads r (by simp))
        rcases List.append_eq_append_iff.mp hflat with ⟨u',hu',hrest'⟩ | ⟨more,-,hmore⟩
        · have hshort : u'.length < u.length := by
            rw [hu',List.length_append]
            omega
          exact ih hreads' ht (by omega) (.inr (by omega)) hmessages' hrest' hrest
        · cases more with
          | nil =>
            have hm := (hmessages' m (by simp)).2
            exact ih hreads' (u := []) ht (by simp)
              (.inr (by simpa [List.length_pos_iff] using hm)) hmessages' hmore.symm hrest
          | cons c more =>
            simp only [List.cons_append,List.cons.injEq] at hmore
            rcases stream_rest hmore.2.symm with hnil | ⟨before₂,m₂,after₂,u₂,rfl,hflat₂,hu₂,-⟩
            · rw [reads_nil hreads' hnil] at hrest
              simp at hrest
            · have hsame : before ++ m :: (before₂ ++ m₂ :: after₂) =
                  (before ++ m :: before₂) ++ m₂ :: after₂ := by simp
              rw [hsame] at hmessages' hrest
              have hstop : isStop m₂.stop = true := (hmessages' m₂ (by simp)).1.stop
              exact ih hreads' hstop hu₂.length_le (.inl (by simp)) hmessages' hflat₂ hrest

theorem stop_fails (htake : Starts isStop take) {reads : List (List α)}
    {messages : List (Message α)} {rest : List α} {t : α} (ht : isStop t = true)
    (hmessages : Readable isStop messages) (hflat : reads.flatten = t :: rest) :
    reads.map take ≠ messages.map Message.text := by
  intro htexts
  cases reads with
  | nil => simp at hflat
  | cons r reads =>
    cases messages with
    | nil => simp at htexts
    | cons m messages =>
      obtain ⟨hvalid,hne⟩ := hmessages m (by simp)
      simp only [List.map_cons,List.cons.injEq] at htexts
      rw [List.flatten_cons] at hflat
      have hnil : m.text <+: [] := text_before_stop htake hvalid hne htexts.1 ht hflat
      exact hne (List.prefix_nil.mp hnil)

theorem reads_of_texts (htake : Starts isStop take) {messages : List (Message α)}
    (hmessages : Readable isStop messages) {reads : List (List α)} (hreads : ∀ r ∈ reads, r ≠ [])
    (hflat : reads.flatten = stream messages)
    (htexts : reads.map take = messages.map Message.text) :
    reads = messages.map Message.sent := by
  induction messages generalizing reads with
  | nil => exact reads_nil hreads hflat
  | cons m messages ih =>
    obtain ⟨hvalid,hne⟩ := hmessages m (by simp)
    have hmessages' : Readable isStop messages := fun m' hm' => hmessages m' (by simp [hm'])
    cases reads with
    | nil => simp at htexts
    | cons r reads =>
      simp only [List.map_cons,List.cons.injEq] at htexts
      obtain ⟨hfirst,hrest⟩ := htexts
      have hreads' : ∀ r ∈ reads, r ≠ [] := fun r hr => hreads r (by simp [hr])
      have hstarts := htake r (by rw [hfirst]; exact hne) (by rw [hfirst]; exact hvalid.text)
      rw [hfirst] at hstarts
      obtain ⟨more,rfl⟩ := hstarts
      have hstream : stream (m :: messages) = m.text ++ m.stop :: stream messages := by
        simp [stream,Message.sent]
      rw [hstream,List.flatten_cons,List.append_assoc,List.append_cancel_left_eq] at hflat
      cases more with
      | nil =>
        exact absurd hrest (stop_fails htake hvalid.stop hmessages' hflat)
      | cons c more =>
        simp only [List.cons_append,List.cons.injEq] at hflat
        obtain ⟨rfl,hflat⟩ := hflat
        by_cases hmore : more = []
        · subst hmore
          rw [List.nil_append] at hflat
          rw [ih hmessages' hreads' hflat hrest]
          rfl
        · rcases stream_rest hflat with hnil | ⟨before,m₂,after,u,rfl,hflat₂,hu,hbehind⟩
          · rw [reads_nil hreads' hnil] at hrest
            have hnone : messages = [] := by simpa using hrest.symm
            subst hnone
            simp only [stream,List.flatMap_nil,List.append_eq_nil_iff] at hflat
            exact absurd hflat.1 hmore
          · have hstop : isStop m₂.stop = true := (hmessages' m₂ (by simp)).1.stop
            exact absurd hrest (ahead_fails htake hreads' hstop hu.length_le (hbehind hmore)
              hmessages' hflat₂)

end Framing
