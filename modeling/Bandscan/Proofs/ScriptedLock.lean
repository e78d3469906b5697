import Bandscan.Tuning
import Bandscan.Device.Memory
/-!
How a scripted frontend answers a tuning. A poll is counted for the frequency it is made on, across
attempts and across tunings, so the count a tuning starts from decides at which of its polls there
is a lock. `Spent` says what a part of a tuning has used up. Its parts add up, and a whole tuning
uses up what `ScriptedFrontend.course` foretells.
-/

namespace Bandscan

namespace ScriptedFrontend

def setTo (frequency : Nat) (current : Option Nat) (f : ScriptedFrontend) : ScriptedFrontend :=
  { f with tuned := f.tuned ++ [frequency], current }

def polled (frequency : Nat) (f : ScriptedFrontend) : ScriptedFrontend :=
  { f with polls := countPoll frequency f.polls }

theorem lookup_countPoll (frequency g : Nat) (polls : List (Nat × Nat)) :
    ((countPoll frequency polls).lookup g).getD 0 =
      (polls.lookup g).getD 0 + if g = frequency then 1 else 0 := by
  fun_induction countPoll frequency polls with
  | case1 =>
    by_cases h : g = frequency
    · simp [h]
    · simp [List.lookup_cons, beq_false_of_ne h, h]
  | case2 n rest =>
    by_cases h : g = frequency
    · simp [h]
    · simp [List.lookup_cons, beq_false_of_ne h, h]
  | case3 f n rest hf ih =>
    by_cases h : g = f
    · simp [h, hf]
    · simpa [List.lookup_cons, beq_false_of_ne h] using ih

/-- The greatest count of polls that fits 32 bits. -/
def maxPolls : Nat := 4294967295

def Countable (f : ScriptedFrontend) : Prop := ∀ frequency, f.pollCount frequency ≤ maxPolls

theorem pollCount_polled (frequency g : Nat) (f : ScriptedFrontend) :
    (f.polled frequency).pollCount g = f.pollCount g + if g = frequency then 1 else 0 :=
  lookup_countPoll frequency g f.polls

/-- How many more polls of a frequency it takes until one finds a lock, if one ever does. -/
def pollsLeft (f : ScriptedFrontend) (frequency : Nat) : Option Nat :=
  (f.lockAfter.lookup frequency).map fun n => max 1 (n - f.pollCount frequency)

theorem pollsLeft_pos {f : ScriptedFrontend} {frequency q : Nat}
    (h : f.pollsLeft frequency = some q) : 1 ≤ q := by
  obtain ⟨n, -, rfl⟩ := Option.map_eq_some_iff.1 h
  exact Nat.le_max_left ..

theorem hasLock_eq {f : ScriptedFrontend} {frequency : Nat} (hc : f.current = some frequency) :
    f.hasLock = (decide (f.pollsLeft frequency = some 1), f.polled frequency) := by
  unfold hasLock pollsLeft pollCount polled
  simp only [hc, lookup_countPoll, if_pos]
  cases f.lockAfter.lookup frequency with
  | none => rfl
  | some n =>
    simp only [Option.any_some, Option.map_some, Option.some.injEq, Prod.mk.injEq, and_true,
      decide_eq_decide]
    omega

structure Course where
  locked : Bool
  sets : Nat
  polls : Nat
  deriving DecidableEq, Repr

/-- How tuning to a frequency goes. A frequency that locks after `n` polls in all does so at poll
`q` of this tuning, in the attempt that makes this poll. -/
def course (f : ScriptedFrontend) (frequency : Nat) (o : TuneOptions) : Course :=
  let attempts := max 1 o.attempts
  if frequency ∈ f.rejected then ⟨false, attempts, 0⟩
  else
    match f.lockAfter.lookup frequency with
    | some n =>
      if 1 ≤ o.lockPolls ∧ n ≤ f.pollCount frequency + attempts * o.lockPolls then
        let q := max 1 (n - f.pollCount frequency)
        ⟨true, (q + o.lockPolls - 1) / o.lockPolls, q⟩
      else ⟨false, attempts, attempts * o.lockPolls⟩
    | none => ⟨false, attempts, attempts * o.lockPolls⟩

end ScriptedFrontend

namespace Bench

variable {w w' w'' : World Bench} {frequency delay sets polls sets' polls' q : Nat}

/-- The frontend has been set to a frequency and polled on it so many times, with a delay before
each poll, and has been used for nothing else. -/
structure Spent (frequency delay sets polls : Nat) (w w' : World Bench) : Prop where
  tuned : w'.device.frontend.tuned = w.device.frontend.tuned ++ List.replicate sets frequency
  pollCount : w'.device.frontend.pollCount frequency = w.device.frontend.pollCount frequency + polls
  others : ∀ g ≠ frequency, w'.device.frontend.pollCount g = w.device.frontend.pollCount g
  time : w'.time = w.time + polls * delay
  lockAfter : w'.device.frontend.lockAfter = w.device.frontend.lockAfter
  rejected : w'.device.frontend.rejected = w.device.frontend.rejected

theorem Spent.nothing (hf : w'.device.frontend = w.device.frontend) (ht : w'.time = w.time) :
    Spent frequency delay 0 0 w w' where
  tuned := by simp [hf]
  pollCount := by simp [hf]
  others := by simp [hf]
  time := by simp [ht]
  lockAfter := by rw [hf]
  rejected := by rw [hf]

theorem Spent.tell (note : Note) (w : World Bench) : Spent frequency delay 0 0 w (w.tell note) :=
  .nothing rfl rfl

theorem Spent.trans (h : Spent frequency delay sets polls w w')
    (h' : Spent frequency delay sets' polls' w' w'') :
    Spent frequency delay (sets + sets') (polls + polls') w w'' where
  tuned := by rw [h'.tuned, h.tuned, List.append_assoc, List.replicate_append_replicate]
  pollCount := by rw [h'.pollCount, h.pollCount, Nat.add_assoc]
  others := fun g hg => (h'.others g hg).trans (h.others g hg)
  time := by rw [h'.time, h.time, Nat.add_mul, Nat.add_assoc]
  lockAfter := h'.lockAfter.trans h.lockAfter
  rejected := h'.rejected.trans h.rejected

/-- Counts only grow, so none has been out of range on the way if none is in the end. -/
theorem Spent.countable_iff (h : Spent frequency delay sets polls w w') :
    w'.device.frontend.Countable ↔ w.device.frontend.Countable ∧
      w.device.frontend.pollCount frequency + polls ≤ ScriptedFrontend.maxPolls := by
  constructor
  · intro hc
    have hf := h.pollCount ▸ hc frequency
    refine ⟨fun g => ?_, hf⟩
    by_cases hg : g = frequency
    · exact hg ▸ Nat.le_trans (Nat.le_add_right ..) hf
    · exact h.others g hg ▸ hc g
  · rintro ⟨hc, hf⟩ g
    by_cases hg : g = frequency
    · exact hg ▸ h.pollCount ▸ hf
    · exact h.others g hg ▸ hc g

def Fails (frequency polls : Nat) (w : World Bench) : Prop :=
  ∀ q, w.device.frontend.pollsLeft frequency = some q → polls < q

theorem fails_of_pollsLeft (hq : w.device.frontend.pollsLeft frequency = some q) (h : polls < q) :
    Fails frequency polls w := by
  intro q' hq'
  rw [hq, Option.some.injEq] at hq'
  omega

theorem Fails.mono (h : Fails frequency polls w) (hle : polls' ≤ polls) :
    Fails frequency polls' w := fun q hq => Nat.lt_of_le_of_lt hle (h q hq)

/-- Polls that found no lock come off the polls it takes to find one. -/
theorem Spent.pollsLeft (h : Spent frequency delay sets polls w w')
    (hmiss : Fails frequency polls w) :
    w'.device.frontend.pollsLeft frequency =
      (w.device.frontend.pollsLeft frequency).map (· - polls) := by
  unfold Fails ScriptedFrontend.pollsLeft at hmiss
  unfold ScriptedFrontend.pollsLeft
  rw [h.lockAfter, h.pollCount]
  cases hn : w.device.frontend.lockAfter.lookup frequency with
  | none => rfl
  | some n =>
    have hlt : polls < max 1 (n - w.device.frontend.pollCount frequency) :=
      hmiss _ (by rw [hn]; rfl)
    simp only [Option.map_some, Option.some.injEq]
    omega

theorem Spent.fails (h : Spent frequency delay sets polls w w')
    (hmiss : Fails frequency (polls + polls') w) : Fails frequency polls' w' := by
  intro q hq
  rw [h.pollsLeft (hmiss.mono (Nat.le_add_right ..))] at hq
  obtain ⟨q', hq', rfl⟩ := Option.map_eq_some_iff.1 hq
  have hlt := hmiss q' hq'
  omega

def withFrontend (f : ScriptedFrontend → ScriptedFrontend) (w : World Bench) : World Bench :=
  w.withDevice fun b => { b with frontend := f b.frontend }

theorem tuned_frontend (frequency : Nat) (w : World Bench) :
    (tuned frequency w).device.frontend = w.device.frontend ∧
      (tuned frequency w).time = w.time := by
  unfold tuned
  dsimp only
  split <;> exact ⟨rfl, rfl⟩

theorem spent_set (kind : DeliveryKind) (tp : Transponder) (delay : Nat) (w : World Bench) :
    let r := (frontendDevice kind).set tp w
    Spent tp.frequency delay 1 0 w r.2 ∧
      ((∃ e, r.1 = .error e) ∧ tp.frequency ∈ w.device.frontend.rejected ∨
        r.1 = .ok () ∧ tp.frequency ∉ w.device.frontend.rejected ∧
          r.2.device.frontend.current = some tp.frequency) := by
  have hset (current : Option Nat) {w' : World Bench} (ht : w'.time = w.time)
      (hf : w'.device.frontend = w.device.frontend.setTo tp.frequency current) :
      Spent tp.frequency delay 1 0 w w' :=
    ⟨by rw [hf]; rfl, by rw [hf]; rfl, fun g _ => by rw [hf]; rfl, by simp [ht], by rw [hf]; rfl,
      by rw [hf]; rfl⟩
  by_cases hr : tp.frequency ∈ w.device.frontend.rejected
  · have hs : (frontendDevice kind).set tp w =
        (.error (.control "FE_SET_FRONTEND" .invalidInput),
          withFrontend (·.setTo tp.frequency none) w) := by
      simp [frontendDevice, World.onDevice, onFrontend, withFrontend, World.withDevice,
        ScriptedFrontend.set, ScriptedFrontend.setTo, hr]
    rw [hs]
    exact ⟨hset none rfl rfl, .inl ⟨⟨_, rfl⟩, hr⟩⟩
  · have hs : (frontendDevice kind).set tp w = (.ok (), tuned tp.frequency
        (withFrontend (·.setTo tp.frequency (some tp.frequency)) w)) := by
      simp [frontendDevice, World.onDevice, onFrontend, withFrontend, World.withDevice,
        ScriptedFrontend.set, ScriptedFrontend.setTo, hr]
    have ht := tuned_frontend tp.frequency
      (withFrontend (·.setTo tp.frequency (some tp.frequency)) w)
    rw [hs]
    exact ⟨hset (some tp.frequency) ht.2 ht.1, .inr ⟨rfl, hr, congrArg (·.current) ht.1⟩⟩

theorem spent_hasLock (kind : DeliveryKind) (delay : Nat) (w : World Bench)
    (hc : w.device.frontend.current = some frequency) :
    let r := (frontendDevice kind).hasLock (w.sleep delay)
    Spent frequency delay 0 1 w r.2 ∧ r.2.device.frontend.current = some frequency ∧
      r.1 = .ok (decide (w.device.frontend.pollsLeft frequency = some 1)) := by
  have hs : (frontendDevice kind).hasLock (w.sleep delay) =
      (.ok (decide (w.device.frontend.pollsLeft frequency = some 1)),
        withFrontend (·.polled frequency) (w.sleep delay)) := by
    simp [frontendDevice, World.onDevice, onFrontend, withFrontend, World.withDevice, World.sleep,
      ScriptedFrontend.hasLock_eq hc]
  rw [hs]
  refine ⟨⟨(List.append_nil _).symm, ?_, ?_, ?_, rfl, rfl⟩, hc, rfl⟩
  · exact (ScriptedFrontend.pollCount_polled ..).trans (by rw [if_pos rfl]; rfl)
  · exact fun g hg => (ScriptedFrontend.pollCount_polled ..).trans (by rw [if_neg hg]; rfl)
  · rw [Nat.one_mul]
    rfl

theorem awaitLock_found (kind : DeliveryKind) (number delay polls : Nat) (w : World Bench)
    (hc : w.device.frontend.current = some frequency)
    (hq : w.device.frontend.pollsLeft frequency = some q) (hle : q ≤ polls) :
    let r := (frontendDevice kind).awaitLock frequency number delay polls w
    r.1 = true ∧ Spent frequency delay 0 q w r.2 := by
  induction polls generalizing w q with
  | zero =>
    have := ScriptedFrontend.pollsLeft_pos hq
    omega
  | succ polls ih =>
    obtain ⟨hs, hc', hl⟩ := spent_hasLock kind delay w hc
    unfold Frontend.awaitLock
    rcases hr : (frontendDevice kind).hasLock (w.sleep delay) with ⟨l, w'⟩
    rw [hr] at hs hc' hl
    dsimp only at hl
    by_cases h1 : q = 1
    · rw [hq, h1, decide_eq_true rfl] at hl
      subst hl h1
      exact ⟨rfl, hs.trans (.tell _ _)⟩
    · -- this poll is not the last one, and takes one off the polls that are left
      have hpos := ScriptedFrontend.pollsLeft_pos hq
      rw [hq, decide_eq_false (by simpa using h1)] at hl
      subst hl
      have hq' := hs.pollsLeft (fails_of_pollsLeft hq (by omega))
      rw [hq] at hq'
      have hle' : q - 1 ≤ polls := by omega
      obtain ⟨ht, hs'⟩ := ih w' hc' hq' hle'
      refine ⟨ht, ?_⟩
      have hsum := hs.trans hs'
      rwa [Nat.add_sub_cancel' hpos] at hsum

theorem awaitLock_missed (kind : DeliveryKind) (number delay polls : Nat) (w : World Bench)
    (hc : w.device.frontend.current = some frequency)
    (hmiss : Fails frequency polls w) :
    let r := (frontendDevice kind).awaitLock frequency number delay polls w
    r.1 = false ∧ Spent frequency delay 0 polls w r.2 := by
  induction polls generalizing w with
  | zero => exact ⟨rfl, .nothing rfl rfl⟩
  | succ polls ih =>
    obtain ⟨hs, hc', hl⟩ := spent_hasLock kind delay w hc
    unfold Frontend.awaitLock
    rcases hr : (frontendDevice kind).hasLock (w.sleep delay) with ⟨l, w'⟩
    rw [hr] at hs hc' hl
    dsimp only at hl
    rw [Nat.add_comm polls] at hmiss ⊢
    rw [decide_eq_false fun h => by have := hmiss 1 h; omega] at hl
    subst hl
    obtain ⟨ht, hs'⟩ := ih w' hc' (hs.fails hmiss)
    exact ⟨ht, hs.trans hs'⟩

theorem attempt_refused (kind : DeliveryKind) (tp : Transponder) (o : TuneOptions)
    (number left : Nat) (w : World Bench)
    (hr : tp.frequency ∈ w.device.frontend.rejected) :
    let r := (frontendDevice kind).attempt tp o number left w
    r.1 = false ∧ Spent tp.frequency o.lockDelay left 0 w r.2 := by
  induction left generalizing number w with
  | zero => exact ⟨rfl, .nothing rfl rfl⟩
  | succ left ih =>
    have h := spent_set kind tp o.lockDelay (w.tell (.info s!"tuning to {tp.frequency}"))
    unfold Frontend.attempt
    rcases hs : (frontendDevice kind).set tp (w.tell (.info s!"tuning to {tp.frequency}"))
      with ⟨e, w'⟩
    rw [hs] at h
    obtain ⟨hset, ⟨⟨e, rfl⟩, -⟩ | ⟨-, hn, -⟩⟩ := h
    · have hfirst := ((Spent.tell _ w).trans hset).trans
        (.tell (.warn s!"{tp.frequency}: {e.message}") w')
      obtain ⟨ht, hrest⟩ := ih (number + 1) _ (by rw [hfirst.rejected]; exact hr)
      exact ⟨ht, by simpa [Nat.add_comm left] using hfirst.trans hrest⟩
    · exact absurd hr hn

/-- One attempt on a frequency that is not refused: it ends with the poll that finds the lock, or it
makes all its polls and leaves the rest to the next attempts. -/
theorem attempt_succ (kind : DeliveryKind) (tp : Transponder) (o : TuneOptions)
    (number left : Nat) (w : World Bench)
    (hr : tp.frequency ∉ w.device.frontend.rejected) :
    let r := (frontendDevice kind).attempt tp o number (left + 1) w
    (∀ q, w.device.frontend.pollsLeft tp.frequency = some q → q ≤ o.lockPolls →
      r.1 = true ∧ Spent tp.frequency o.lockDelay 1 q w r.2) ∧
    (Fails tp.frequency o.lockPolls w → ∃ w', Spent tp.frequency o.lockDelay 1 o.lockPolls w w' ∧
      r = (frontendDevice kind).attempt tp o (number + 1) left w') := by
  have h := spent_set kind tp o.lockDelay (w.tell (.info s!"tuning to {tp.frequency}"))
  rw [Frontend.attempt]
  rcases hs : (frontendDevice kind).set tp (w.tell (.info s!"tuning to {tp.frequency}"))
    with ⟨e, w'⟩
  rw [hs] at h
  obtain ⟨hset, ⟨-, hn⟩ | ⟨rfl, -, hc⟩⟩ := h
  · exact absurd hn hr
  · have hset := (Spent.tell _ w).trans hset
    have hleft := hset.pollsLeft fun q hq => ScriptedFrontend.pollsLeft_pos hq
    dsimp only
    rcases ha : (frontendDevice kind).awaitLock tp.frequency number o.lockDelay o.lockPolls w'
      with ⟨locked, w''⟩
    constructor
    · intro q hq hle
      rw [hq] at hleft
      have hfound := awaitLock_found kind number o.lockDelay o.lockPolls w' hc hleft hle
      rw [ha] at hfound
      obtain ⟨rfl, hpolls⟩ := hfound
      exact ⟨rfl, by simpa using hset.trans hpolls⟩
    · intro hmiss
      have hmissed := awaitLock_missed kind number o.lockDelay o.lockPolls w' hc
        (hset.fails (by rwa [Nat.add_zero, Nat.zero_add]))
      rw [ha] at hmissed
      obtain ⟨rfl, hpolls⟩ := hmissed
      have hall := (hset.trans hpolls).trans (.tell (.warn ">>> tuning failed!!!") w'')
      exact ⟨_, by simpa using hall, rfl⟩

theorem attempt_found (kind : DeliveryKind) (tp : Transponder) (o : TuneOptions)
    (number left : Nat) (w : World Bench)
    (hr : tp.frequency ∉ w.device.frontend.rejected)
    (hq : w.device.frontend.pollsLeft tp.frequency = some q) (hle : q ≤ left * o.lockPolls) :
    let r := (frontendDevice kind).attempt tp o number left w
    r.1 = true ∧
      Spent tp.frequency o.lockDelay ((q + o.lockPolls - 1) / o.lockPolls) q w r.2 := by
  have hpos := ScriptedFrontend.pollsLeft_pos hq
  induction left generalizing number w q with
  | zero => omega
  | succ left ih =>
    obtain ⟨hfound, hmissed⟩ := attempt_succ kind tp o number left w hr
    rcases Nat.lt_or_ge o.lockPolls q with hlt | hge
    · -- all polls of this attempt fail, and one set comes off the quotient with them
      have hL : 0 < o.lockPolls := Nat.pos_of_ne_zero fun h => by simp [h] at hle; omega
      have hmiss : Fails tp.frequency o.lockPolls w := fails_of_pollsLeft hq hlt
      obtain ⟨w', hs, heq⟩ := hmissed hmiss
      have hq' := hs.pollsLeft hmiss
      rw [hq] at hq'
      rw [Nat.add_mul] at hle
      have hle' : q - o.lockPolls ≤ left * o.lockPolls := by omega
      obtain ⟨ht, hs'⟩ := ih (number + 1) w' (by rw [hs.rejected]; exact hr) hq' hle'
        (by show 1 ≤ q - o.lockPolls; omega)
      rw [heq]
      have hsets : (q + o.lockPolls - 1) / o.lockPolls =
          1 + (q - o.lockPolls + o.lockPolls - 1) / o.lockPolls := by
        rw [show q + o.lockPolls - 1 = q - o.lockPolls + o.lockPolls - 1 + o.lockPolls by omega,
          Nat.add_div_right _ hL, Nat.add_comm 1]
      have hall := hs.trans hs'
      dsimp only at hall
      rw [← hsets, Nat.add_sub_cancel' (Nat.le_of_lt hlt)] at hall
      exact ⟨ht, hall⟩
    · have hsets : (q + o.lockPolls - 1) / o.lockPolls = 1 :=
        Nat.div_eq_of_lt_le (by omega) (by omega)
      rw [hsets]
      exact hfound q hq hge

theorem attempt_missed (kind : DeliveryKind) (tp : Transponder) (o : TuneOptions)
    (number left : Nat) (w : World Bench)
    (hr : tp.frequency ∉ w.device.frontend.rejected)
    (hmiss : Fails tp.frequency (left * o.lockPolls) w) :
    let r := (frontendDevice kind).attempt tp o number left w
    r.1 = false ∧ Spent tp.frequency o.lockDelay left (left * o.lockPolls) w r.2 := by
  induction left generalizing number w with
  | zero =>
    rw [Nat.zero_mul]
    exact ⟨rfl, .nothing rfl rfl⟩
  | succ left ih =>
    rw [Nat.add_mul, Nat.one_mul, Nat.add_comm (left * _)] at hmiss ⊢
    obtain ⟨w', hs, heq⟩ :=
      (attempt_succ kind tp o number left w hr).2 (hmiss.mono (Nat.le_add_right ..))
    obtain ⟨ht, hs'⟩ := ih (number + 1) w' (by rw [hs.rejected]; exact hr) (hs.fails hmiss)
    rw [heq, Nat.add_comm left]
    exact ⟨ht, hs.trans hs'⟩

theorem spent_tune (kind : DeliveryKind) (tp : Transponder) (o : TuneOptions) (w : World Bench) :
    let c := w.device.frontend.course tp.frequency o
    let r := (frontendDevice kind).tune tp o w
    r.1 = c.locked ∧ Spent tp.frequency o.lockDelay c.sets c.polls w r.2 := by
  unfold Frontend.tune ScriptedFrontend.course
  dsimp only
  split
  next hr => exact attempt_refused kind tp o 1 _ w hr
  next hr =>
    have hpos : 1 ≤ max 1 o.attempts := Nat.le_max_left ..
    have hmul : o.lockPolls ≤ max 1 o.attempts * o.lockPolls := Nat.le_mul_of_pos_left _ hpos
    split
    next n hn =>
      have hq : w.device.frontend.pollsLeft tp.frequency =
          some (max 1 (n - w.device.frontend.pollCount tp.frequency)) := by
        rw [ScriptedFrontend.pollsLeft, hn, Option.map_some]
      split
      next hreach => exact attempt_found kind tp o 1 _ w hr hq (by omega)
      next hreach =>
        refine attempt_missed kind tp o 1 _ w hr (fails_of_pollsLeft hq ?_)
        -- without polls a lock is out of reach, even one that takes no polls by the script
        rcases Nat.eq_zero_or_pos o.lockPolls with h0 | h0
        · rw [h0, Nat.mul_zero]
          omega
        · omega
    next hn =>
      refine attempt_missed kind tp o 1 _ w hr fun q hq => ?_
      simp [ScriptedFrontend.pollsLeft, hn] at hq

/-- Tuning goes as foretold, whatever the script, the polls made before and the options. It leaves
no count out of range exactly if none was before and the polls to come leave room. -/
theorem tune_follows_course (kind : DeliveryKind) (tp : Transponder) (o : TuneOptions)
    (w : World Bench) :
    let c := w.device.frontend.course tp.frequency o
    let r := (frontendDevice kind).tune tp o w
    r.1 = c.locked ∧ Spent tp.frequency o.lockDelay c.sets c.polls w r.2 ∧
      (r.2.device.frontend.Countable ↔ w.device.frontend.Countable ∧
        w.device.frontend.pollCount tp.frequency + c.polls ≤ ScriptedFrontend.maxPolls) := by
  intro c r
  obtain ⟨hlocked, hspent⟩ := spent_tune kind tp o w
  exact ⟨hlocked, hspent, hspent.countable_iff⟩

-- With ten polls to an attempt the thirteenth is the third of the second attempt, unless three have
-- been made before.
example : ({ lockAfter := [(506, 13)] } : ScriptedFrontend).course 506 {} = ⟨true, 2, 13⟩ := by
  decide

example : ({ lockAfter := [(506, 13)], polls := [(506, 3)] } : ScriptedFrontend).course 506 {} =
    ⟨true, 1, 10⟩ := by
  decide

end Bench

end Bandscan
