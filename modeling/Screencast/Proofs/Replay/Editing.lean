import Screencast.Proofs.Replay.Agreement
import Screencast.Proofs.Replay.Effect
import Screencast.Proofs.Replay.Soundness

/-!
# Editing key by key

Typing and deleting go through a text one code point at a time, and each code point is a key that is
performed on its own, with a draw of the typing rhythm.  However that ends, the stage is left with the
first so many keys and as many draws: `Stage.exists_performAll_keys`.

Where nothing can halt a key, editing therefore comes to editing at once, and typing and deleting undo
each other: `keywise`.
-/

namespace Screencast

/-- The generator after so many draws. -/
def Twister.skip (rhythm : Twister) : Nat → Twister
  | 0 => rhythm
  | count + 1 => rhythm.next.2.skip count

/-- Every delay that can be drawn for a key comes to a number of frames. -/
def Config.TimesKeys (config : Config) : Prop :=
  ∀ key (rhythm : Twister), ∃ delay, config.keyDelay key rhythm.next.1 = .ok delay ∧
    config.Lasts (.real delay)

theorem Setting.Steady.timesKeys {setting : Setting} (h : setting.Steady) :
    setting.config.TimesKeys :=
  h.keys

/-- The delays depend on the frame rate and the typing speed only. -/
theorem Config.TimesKeys.congr {config other : Config} (h : config.TimesKeys)
    (hfps : config.fps = other.fps) (htyping : config.typingSpeed = other.typingSpeed) :
    other.TimesKeys := by
  intro key rhythm
  obtain ⟨delay, hdelay, count, hcount⟩ := h key rhythm
  refine ⟨delay, ?_, count, ?_⟩
  · rw [← hdelay, keyDelay, keyDelay, htyping]
  · rw [← hcount, frameCount, frameCount, hfps]

namespace Cue

/-- A moment that is the pressing of a key. -/
def IsKey (cue : Cue) : Prop := ∃ key session, cue = .key key session

theorem IsKey.nextRhythm {cue : Cue} (h : cue.IsKey) (rhythm : Twister) :
    cue.nextRhythm rhythm = rhythm.skip 1 := by
  obtain ⟨key, session, rfl⟩ := h
  rfl

theorem IsKey.paced {cue : Cue} (h : cue.IsKey) : cue.Paced := by
  obtain ⟨key, session, rfl⟩ := h
  trivial

theorem IsKey.stop? {config : Config} (hkeys : config.TimesKeys) {cue : Cue} (h : cue.IsKey)
    (rhythm : Twister) : cue.stop? config rhythm = none := by
  obtain ⟨key, session, rfl⟩ := h
  obtain ⟨delay, hdelay, hlasts⟩ := hkeys key rhythm
  simp only [Cue.stop?, hdelay]
  exact Config.stop?_of_lasts hlasts

end Cue

/-! ## The keys of a text -/

namespace Session

variable (session : Session)

theorem typing_isKey (text : Text) : ∀ cue ∈ session.typing text, cue.IsKey := by
  induction text generalizing session with
  | nil => exact List.forall_mem_nil _
  | cons c rest ih =>
      rw [typing, List.forall_mem_cons]
      exact ⟨⟨_, _, rfl⟩, ih _⟩

theorem deleting_isKey (count : Nat) : ∀ cue ∈ session.deleting count, cue.IsKey := by
  induction count generalizing session with
  | zero => exact List.forall_mem_nil _
  | succ count ih =>
      rw [deleting]
      split
      · exact List.forall_mem_nil _
      · rw [List.forall_mem_cons]
        exact ⟨⟨_, _, rfl⟩, ih _⟩

@[simp] theorem length_typing (text : Text) : (session.typing text).length = text.length := by
  induction text generalizing session with
  | nil => rfl
  | cons c rest ih => rw [typing, List.length_cons, ih, List.length_cons]

/-- The first keys of a text are those of the first code points. -/
theorem take_typing (text : Text) (count : Nat) :
    (session.typing text).take count = session.typing (text.take count) := by
  induction text generalizing session count with
  | nil => simp [typing]
  | cons c rest ih =>
      cases count with
      | zero => rfl
      | succ count => rw [typing, List.take_succ_cons, ih, List.take_succ_cons, typing]

/-- Deleting less stops after the first keys. -/
theorem take_deleting (count less : Nat) (h : less ≤ count) :
    (session.deleting count).take less = session.deleting less := by
  induction less generalizing session count with
  | zero => rfl
  | succ less ih =>
      obtain ⟨count, rfl⟩ := Nat.exists_eq_add_of_le' (Nat.succ_pos less |>.trans_le h)
      rw [deleting, deleting]
      split
      · rfl
      · rw [List.take_succ_cons, ih _ _ (Nat.le_of_succ_le_succ h)]

/-! ## What editing takes back -/

/-- Deleting as much as was typed. -/
theorem erase_type (text : Text) : (session.type text).erase text.length = session := by
  simp [erase, type]

/-- Typing what was deleted puts it back on the terminal, and also into the command if it was all
part of it. -/
theorem type_erase (count : Nat) :
    let restored := (session.erase count).type
      (session.buffer.drop (session.buffer.length - count))
    restored.buffer = session.buffer ∧
      (session.pending <:+ session.buffer → count ≤ session.pending.length →
        restored = session) := by
  have hbuffer : session.buffer.take (session.buffer.length - count)
      ++ session.buffer.drop (session.buffer.length - count) = session.buffer :=
    List.take_append_drop _ _
  refine ⟨hbuffer, fun hsuffix hcount => ?_⟩
  obtain ⟨before, hbefore⟩ := hsuffix
  have hlength : session.buffer.length = before.length + session.pending.length := by
    rw [← hbefore, List.length_append]
  have hmin : min count session.buffer.length = count := by omega
  -- what is deleted is the end of the command
  have hdrop : session.buffer.drop (session.buffer.length - count)
      = session.pending.drop (session.pending.length - count) := by
    have hplace : session.buffer.length - count
        = before.length + (session.pending.length - count) := by
      omega
    rw [hplace, ← hbefore, List.drop_length_add_append]
  have hpending : (session.erase count).pending
      = session.pending.take (session.pending.length - count) := by
    simp only [erase, hmin]
  simp only [type, hpending, hdrop, List.take_append_drop]
  rw [← hdrop]
  simp only [erase, hbuffer]

end Session

/-! ## Pressing keys -/

namespace Stage

variable {setting : Setting}

/-- However the keys end, the stage is left with the first so many of them and with as many draws; the
one that came to a halt is among them. -/
theorem exists_performAll_keys (setting : Setting) {cues : List Cue} (hkeys : ∀ cue ∈ cues, cue.IsKey)
    (stage : Stage) :
    ∃ count ended halt, stage.performAll setting cues = (ended, halt) ∧ count ≤ cues.length ∧
      (halt = none → count = cues.length) ∧
      ended.session = stage.session.after (cues.take count) ∧
      ended.rhythm = stage.rhythm.skip count := by
  induction cues generalizing stage with
  | nil => exact ⟨0, stage, none, rfl, le_refl 0, fun _ => rfl, rfl, rfl⟩
  | cons cue rest ih =>
      rw [List.forall_mem_cons] at hkeys
      have hsession := session_perform setting cue stage
      have hrhythm := rhythm_perform setting cue stage
      rw [hkeys.1.nextRhythm] at hrhythm
      rw [performAll_cons]
      rcases hcue : stage.perform setting cue with ⟨next, _ | halt⟩
      · obtain ⟨count, ended, halt, hrest, hcount, hnone, hafter, hskip⟩ := ih hkeys.2 next
        rw [hcue] at hsession hrhythm
        refine ⟨count + 1, ended, halt, hrest, Nat.succ_le_succ hcount, fun h => ?_, ?_, ?_⟩
        · rw [hnone h, List.length_cons]
        · rw [hafter, hsession, List.take_succ_cons, Session.after_cons]
        · rw [hskip, hrhythm]
          rfl
      · rw [hcue] at hsession hrhythm
        exact ⟨1, next, some halt, rfl, Nat.succ_le_succ (Nat.zero_le _), nofun, hsession, hrhythm⟩

/-- Where nothing can halt a key, keys are performed. -/
theorem performAll_keys_isNone (h : setting.Clear) (hconfig : setting.config.TimesKeys)
    {cues : List Cue} (hkeys : ∀ cue ∈ cues, cue.IsKey) (stage : Stage) :
    (stage.performAll setting cues).2 = none := by
  induction cues generalizing stage with
  | nil => rfl
  | cons cue rest ih =>
      rw [List.forall_mem_cons] at hkeys
      rw [performAll_cons]
      refine andThen_isNone ?_ (ih hkeys.2)
      rw [h.perform hkeys.1.paced, hkeys.1.stop? hconfig]

/-- Typing key by key. -/
theorem exists_typeText (setting : Setting) (text : Text) (stage : Stage) :
    ∃ count ended halt, stage.execute setting (.typeText text) = (ended, halt) ∧
      count ≤ text.length ∧ (halt = none → count = text.length) ∧
      ended.session = stage.session.type (text.take count) ∧
      ended.rhythm = stage.rhythm.skip count := by
  obtain ⟨count, ended, halt, htyping, hcount, hnone, hsession, hrhythm⟩ :=
    exists_performAll_keys setting (stage.session.typing_isKey text) stage
  rw [Session.length_typing] at hcount hnone
  rw [Session.take_typing, Session.after_typing] at hsession
  exact ⟨count, ended, halt, htyping, hcount, hnone, hsession, hrhythm⟩

/-- Deleting key by key. -/
theorem exists_deleteValue (setting : Setting) (n : Nat) (stage : Stage) :
    ∃ count ended halt, stage.deleteValue setting (.int n) = (ended, halt) ∧
      count ≤ min n stage.session.buffer.length ∧
      (halt = none → count = min n stage.session.buffer.length) ∧
      ended.session = stage.session.delete count ∧
      ended.rhythm = stage.rhythm.skip count := by
  obtain ⟨count, ended, halt, hdeleting, hcount, hnone, hsession, hrhythm⟩ :=
    exists_performAll_keys setting (stage.session.deleting_isKey n) stage
  rw [Session.length_deleting] at hcount hnone
  rw [Session.take_deleting _ _ _ (hcount.trans (Nat.min_le_left _ _)), Session.after_deleting,
    ← Session.delete_natCast] at hsession
  rw [Step.deleteValue_natCast]
  exact ⟨count, ended, halt, hdeleting, hcount, hnone, hsession, hrhythm⟩

end Stage

/-- What editing key by key has in common with editing at once. -/
structure Keywise (setting : Setting) (stage : Stage) : Prop where
  /-- However typing ends, some first part of the text is typed, with a draw for each code point; if it
  does not halt, it is the whole text. -/
  typing : ∀ text, ∃ count ended halt,
    stage.execute setting (.typeText text) = (ended, halt) ∧ count ≤ text.length ∧
      (halt = none → count = text.length) ∧
      ended.session = stage.session.type (text.take count) ∧
      ended.rhythm = stage.rhythm.skip count
  /-- However deleting ends, so many code points are deleted, with a draw for each; if it does not halt,
  as many as there are up to the number asked for. -/
  deleting : ∀ n : Nat, ∃ count ended halt,
    stage.deleteValue setting (.int n) = (ended, halt) ∧
      count ≤ min n stage.session.buffer.length ∧
      (halt = none → count = min n stage.session.buffer.length ∧
        ended.session = stage.session.delete n) ∧
      ended.session = stage.session.delete count ∧
      ended.rhythm = stage.rhythm.skip count
  /-- Deleting what was typed restores the session. -/
  undone : ∀ text typed restored, stage.execute setting (.typeText text) = (typed, none) →
    typed.deleteValue setting (.int text.length) = (restored, none) →
    restored.session = stage.session
  /-- Typing what was deleted restores the buffer, and the session if it was all part of the command. -/
  retyped : ∀ (n : Nat) deleted restored, stage.deleteValue setting (.int n) = (deleted, none) →
    deleted.execute setting
      (.typeText (stage.session.buffer.drop (stage.session.buffer.length - n))) = (restored, none) →
    restored.session.buffer = stage.session.buffer ∧
      (stage.session.pending <:+ stage.session.buffer → n ≤ stage.session.pending.length →
        restored.session = stage.session)
  /-- Neither halts if everything can be shown and every delay comes to a number of frames. -/
  returns : setting.Clear → setting.config.TimesKeys → ∀ now : Stage,
    (∀ text, (now.execute setting (.typeText text)).2 = none) ∧
      ∀ n : Nat, (now.deleteValue setting (.int n)).2 = none

namespace Stage

variable {setting : Setting} {stage typed deleted restored : Stage}

theorem session_of_typeText {text : Text}
    (h : stage.execute setting (.typeText text) = (typed, none)) :
    typed.session = stage.session.type text := by
  rw [session_performAll setting h]
  exact stage.session.after_typing text

theorem session_of_deleteValue {n : Nat}
    (h : stage.deleteValue setting (.int n) = (deleted, none)) :
    deleted.session = stage.session.erase n := by
  rw [Step.deleteValue_natCast] at h
  rw [session_performAll setting h]
  exact stage.session.after_deleting n

end Stage

/-- Editing key by key comes to editing at once. -/
theorem keywise (setting : Setting) (stage : Stage) : Keywise setting stage where
  typing text := stage.exists_typeText setting text
  deleting n := by
    obtain ⟨count, ended, halt, hdelete, hcount, hnone, hsession, hrhythm⟩ :=
      stage.exists_deleteValue setting n
    refine ⟨count, ended, halt, hdelete, hcount, fun h => ⟨hnone h, ?_⟩, hsession, hrhythm⟩
    subst h
    rw [Stage.session_of_deleteValue hdelete, Session.delete_natCast]
  undone text typed restored htype hdelete := by
    rw [Stage.session_of_deleteValue hdelete, Stage.session_of_typeText htype, Session.erase_type]
  retyped n deleted restored hdelete htype := by
    rw [Stage.session_of_typeText htype, Stage.session_of_deleteValue hdelete]
    exact stage.session.type_erase n
  returns h hkeys now := by
    refine ⟨fun text => ?_, fun n => ?_⟩
    · exact Stage.performAll_keys_isNone h hkeys (now.session.typing_isKey text) now
    · rw [Step.deleteValue_natCast]
      exact Stage.performAll_keys_isNone h hkeys (now.session.deleting_isKey n) now

/-- With the usual options, two letters can be typed and deleted again. -/
theorem keywise_twoLetters :
    ∃ typed restored,
      (Stage.initial (.ofSeed 0)).execute (quietSetting usualConfig) (.typeText "ab") = (typed, none) ∧
      typed.session = Session.empty.type "ab" ∧
      typed.deleteValue (quietSetting usualConfig) (.int 2) = (restored, none) ∧
      restored.session = .empty := by
  have hsteady : (quietSetting usualConfig).Steady :=
    Setting.steady_of_moderate rfl usualConfig_moderate (fun _ => rfl) trivial
  have hkeywise := keywise (quietSetting usualConfig) (Stage.initial (.ofSeed 0))
  have hreturns := hkeywise.returns hsteady.clear hsteady.timesKeys
  obtain ⟨-, typed, halt, htype, -, -, -, -⟩ := hkeywise.typing "ab"
  have htyped := (hreturns (Stage.initial (.ofSeed 0))).1 "ab"
  rw [htype] at htyped
  obtain rfl : halt = none := htyped
  obtain ⟨-, restored, halt, hdelete, -, -, -, -⟩ := (keywise _ typed).deleting 2
  have hdeleted := (hreturns typed).2 2
  rw [hdelete] at hdeleted
  obtain rfl : halt = none := hdeleted
  exact ⟨typed, restored, htype, Stage.session_of_typeText htype, hdelete,
    hkeywise.undone "ab" typed restored htype hdelete⟩

/-- Typing key by key leaves less than typing at once if the first letter cannot be shown, although every
delay comes to a number of frames. -/
theorem typeText_hugeBlink :
    hugeBlink.TimesKeys ∧
      ((Stage.initial (.ofSeed 0)).execute (quietSetting hugeBlink) (.typeText "ab")).1.session.buffer
        = "a" ∧
      (Session.empty.type "ab").buffer = "ab" := by
  have hsteady : (quietSetting usualConfig).Steady :=
    Setting.steady_of_moderate rfl usualConfig_moderate (fun _ => rfl) trivial
  refine ⟨hsteady.timesKeys.congr rfl rfl, ?_, rfl⟩
  decide +kernel

end Screencast
