import KalshiBot.Ipc.GatedDispatch
import KalshiBot.Library.Runs
import KalshiBot.Runtime.SwitchCli

/-! # The executor under the operator's orders

Shells engage and release the switch while the executor handles fires, and no two of these wait
for each other. The order that stands is what the commands amount to; the file carries it to the
executor, whose switch looks at the file again when its last look is too old.
-/

namespace KalshiBot.Ipc

open PythonText Execution Risk KalshiBot.Runtime Runs Relation

set_option autoImplicit false

namespace ExecutorServer

/-- The executor after the switch has answered a fire. -/
def looked (server : ExecutorServer) (r : FireReadings) : ExecutorServer :=
  { server with
    killSwitch := server.killSwitch.map fun s => (s.isEngaged r.switchExists r.switchNs).2 }

theorem guardFire_looked (server : ExecutorServer) (m : WakeMessage) (r : FireReadings)
    (count : ℤ) (wirePrice : ℚ) :
    (server.guardFire m count wirePrice r).2.2.killSwitch = (server.looked r).killSwitch := by
  cases hSwitch : server.killSwitch with
  | none => simp only [guardFire, looked, hSwitch, gateFire_killSwitch, Option.map_none]
  | some s =>
    simp only [guardFire, looked, hSwitch, Option.map_some]
    split
    · cases KillSwitch.reason r.switchText with
      | none => rfl
      | some text => rfl
    · rw [gateFire_killSwitch]

/-- A fire leaves the switch as it is, or looks at it once. -/
theorem startFire_switch (server : ExecutorServer) (m : WakeMessage) (r : FireReadings) :
    (server.startFire m r).2.2.killSwitch = server.killSwitch ∨
      (server.startFire m r).2.2.killSwitch = (server.looked r).killSwitch := by
  unfold startFire
  cases hSnap : snapToGrid m.wirePriceYesDollars m.priceRanges with
  | none =>
    left
    split
    · rfl
    · split <;> rfl
  | some wirePrice =>
    split
    · exact .inl (sendFire_killSwitch _ _)
    · split
      · exact .inl rfl
      · dsimp only
        split
        · exact .inl rfl
        · exact .inr (guardFire_looked server m r _ _)

end ExecutorServer

structure WatchedExecutor where
  server : ExecutorServer
  file : SwitchFile
  nowNs : ℤ
  /-- What shells have done to the file since the start, and when one last touched it. -/
  commands : List SwitchCommand := []
  touchedNs : Option ℤ := none

namespace WatchedExecutor

/-- The order that stands, where the file at the start gave the order `first`. -/
def standing (first : Option String) (w : WatchedExecutor) : Option String :=
  w.commands.foldl SwitchCommand.obey first

def commanded (path : String) (w : WatchedExecutor) (command : SwitchCommand) (atNs : ℤ) :
    WatchedExecutor :=
  { w with
    file := command.run path atNs w.file
    nowNs := atNs
    commands := w.commands ++ [command]
    touchedNs := if command.touches then some atNs else w.touchedNs }

/-- `fire` reads the clock, then looks at the file; commands come in between as well. `other` is
whatever else the executor does. -/
inductive Step (path : String) : WatchedExecutor → WatchedExecutor → Prop
  | command {w : WatchedExecutor} {command : SwitchCommand} {atNs : ℤ} (hNow : w.nowNs ≤ atNs) :
      Step path w (w.commanded path command atNs)
  | fire {w : WatchedExecutor} {m : WakeMessage} {r : FireReadings} {atNs : ℤ}
      (hNow : w.nowNs ≤ atNs) (hClock : r.switchNs ≤ atNs)
      (hExists : r.switchExists = w.file.isSome) :
      Step path w { w with server := (w.server.startFire m r).2.2, nowNs := atNs }
  | other {w : WatchedExecutor} {server : ExecutorServer} {atNs : ℤ} (hNow : w.nowNs ≤ atNs)
      (hSwitch : server.killSwitch = w.server.killSwitch) :
      Step path w { w with server, nowNs := atNs }

/-- What the switch remembers is what the file says, unless a shell has touched the file since. -/
structure Remembers (ttlSeconds : ℚ) (w : WatchedExecutor) (s : KillSwitch) : Prop where
  sameTtl : s.ttlSeconds = ttlSeconds
  past : ∀ value ∈ s.cached, s.checkedAtNs ≤ w.nowNs
  current : ∀ value ∈ s.cached, value = w.file.isSome ∨ ∃ touchedNs ∈ w.touchedNs,
    s.checkedAtNs ≤ touchedNs

structure Watched (ttlSeconds : ℚ) (first : Option String) (w : WatchedExecutor) : Prop where
  present : w.server.killSwitch.isSome
  switch : ∀ s ∈ w.server.killSwitch, w.Remembers ttlSeconds s
  order : w.file.order = w.standing first

variable {ttlSeconds : ℚ} {first : Option String} {w : WatchedExecutor} {s : KillSwitch}

theorem Remembers.later (h : w.Remembers ttlSeconds s) {atNs : ℤ} (hNow : w.nowNs ≤ atNs)
    (server : ExecutorServer) : Remembers ttlSeconds { w with server, nowNs := atNs } s where
  sameTtl := h.sameTtl
  past value hValue := (h.past value hValue).trans hNow
  current := h.current

theorem Remembers.looked (h : w.Remembers ttlSeconds s) {atNs : ℤ} (hNow : w.nowNs ≤ atNs)
    {clockNs : ℤ} (hClock : clockNs ≤ atNs) (server : ExecutorServer) :
    Remembers ttlSeconds { w with server, nowNs := atNs }
      (s.isEngaged w.file.isSome clockNs).2 := by
  obtain ⟨value, -, -, hAnswer⟩ | hAnswer := s.isEngaged_cases w.file.isSome clockNs
  · rw [hAnswer]
    exact h.later hNow server
  · rw [hAnswer]
    refine ⟨h.sameTtl, fun value _ => hClock, ?_⟩
    rintro value ⟨⟩
    exact .inl rfl

theorem Remembers.commanded (h : w.Remembers ttlSeconds s) {atNs : ℤ} (hNow : w.nowNs ≤ atNs)
    (path : String) (command : SwitchCommand) :
    (w.commanded path command atNs).Remembers ttlSeconds s := by
  refine ⟨h.sameTtl, fun value hValue => (h.past value hValue).trans hNow, ?_⟩
  intro value hValue
  cases hTouches : command.touches with
  | true =>
    refine .inr ⟨atNs, ?_, (h.past value hValue).trans hNow⟩
    simp only [WatchedExecutor.commanded, hTouches, if_true, Option.mem_def]
  | false =>
    simp only [WatchedExecutor.commanded, hTouches, Bool.false_eq_true, if_false,
      run_of_not_touches hTouches]
    exact h.current value hValue

theorem preserves_watched (path : String) (ttlSeconds : ℚ) (first : Option String) :
    Preserves (Step path) (Watched ttlSeconds first) := by
  intro w next hStep h
  cases hStep with
  | command hNow =>
    refine ⟨h.present, fun s hSwitch => (h.switch s hSwitch).commanded hNow path _, ?_⟩
    rw [commanded, standing, List.foldl_append, run_order, h.order]
    rfl
  | @fire m r atNs hNow hClock hExists =>
    refine ⟨(w.server.startFire_killSwitch m r).trans h.present, fun s hSwitch => ?_, h.order⟩
    obtain hSame | hLooked := w.server.startFire_switch m r
    · exact (h.switch s (hSame ▸ hSwitch)).later hNow _
    · obtain ⟨before, hBefore, rfl⟩ := Option.map_eq_some_iff.mp (hLooked ▸ hSwitch)
      rw [hExists]
      exact (h.switch before hBefore).looked hNow hClock _
  | other hNow hSame =>
    exact ⟨hSame ▸ h.present, fun s hSwitch => (h.switch s (hSame ▸ hSwitch)).later hNow _, h.order⟩

/-- An answer that comes `ttlSeconds` after the file was last touched is the file's own. -/
theorem Remembers.answer (h : w.Remembers ttlSeconds s) {clockNs : ℤ}
    (hSettled : ∀ touchedNs ∈ w.touchedNs, (touchedNs : ℚ) + ttlSeconds * 10 ^ 9 ≤ clockNs) :
    (s.isEngaged w.file.isSome clockNs).1 = w.file.isSome := by
  obtain ⟨value, hCached, hYoung, hAnswer⟩ | hAnswer := s.isEngaged_cases w.file.isSome clockNs
  · rw [hAnswer]
    obtain hSame | ⟨touchedNs, hTouched, hBefore⟩ := h.current value hCached
    · exact hSame
    · have hOld := hSettled touchedNs hTouched
      have hChecked : (s.checkedAtNs : ℚ) ≤ touchedNs := by exact_mod_cast hBefore
      rw [h.sameTtl, Int.cast_sub] at hYoung
      linarith
  · rw [hAnswer]

/-- What the executor does with a real fire that could be sent, under an order of the operator. -/
def underOrder (server : ExecutorServer) (m : WakeMessage) (count : ℤ) (wirePrice : ℚ)
    (r : FireReadings) : Option String → Handled
  | some reason =>
    (.finished,
      [recordRejected server m count wirePrice ("kill switch engaged: " ++ reason) r],
      server.looked r)
  | none => (server.looked r).gateFire m count wirePrice r

theorem guardFire_underOrder {server : ExecutorServer} (hSwitch : server.killSwitch = some s)
    {file : SwitchFile} {r : FireReadings}
    (hAnswer : (s.isEngaged r.switchExists r.switchNs).1 = file.isSome)
    (hText : r.switchText = file.readText) (m : WakeMessage) (count : ℤ) (wirePrice : ℚ) :
    server.guardFire m count wirePrice r = underOrder server m count wirePrice r file.order := by
  have hLooked : server.looked r =
      { server with killSwitch := some (s.isEngaged r.switchExists r.switchNs).2 } := by
    rw [ExecutorServer.looked, hSwitch, Option.map_some]
  cases file with
  | none =>
    have hOrder : SwitchFile.order none = none := rfl
    rw [Option.isSome_none] at hAnswer
    rw [hOrder, underOrder, hLooked]
    simp only [ExecutorServer.guardFire, hSwitch, hAnswer, Bool.false_eq_true, if_false]
  | some contents =>
    rw [Option.isSome_some] at hAnswer
    have hRead : KillSwitch.reason r.switchText = some (some
        (String.ofList (strip (universalNewlines contents.toList)))) := by
      rw [hText, SwitchFile.readText, KillSwitch.reason, String.toList_ofList]
    have hOrder : SwitchFile.order (some contents) =
        some (shownReason (some (String.ofList (strip (universalNewlines contents.toList))))) := by
      rw [hText] at hRead
      rw [SwitchFile.order, hRead]
      rfl
    rw [hOrder, underOrder, hLooked]
    simp only [ExecutorServer.guardFire, hSwitch, hAnswer, if_true, hRead]
    rfl

/-- Once the cache is older than the last touch of the file, a fire does what the operator's
commands amount to: it is refused in the words of the last `engage`, or goes on to the gate. -/
theorem fire_obeys {path : String} {server : ExecutorServer} {ttlSeconds : ℚ}
    (hNew : server.killSwitch = some { ttlSeconds }) {file : SwitchFile} {startNs : ℤ}
    (hRun : ReflTransGen (Step path) { server, file, nowNs := startNs } w)
    {m : WakeMessage} {r : FireReadings} {wirePrice : ℚ} (hReal : m.dryRun = false)
    (hTradeable : 0 < m.wirePriceYesDollars ∧ m.wirePriceYesDollars < 1)
    (hSnap : snapToGrid m.wirePriceYesDollars m.priceRanges = some wirePrice)
    (hCount : 1 ≤ orderCount w.server m r.balanceDollars)
    (hExists : r.switchExists = w.file.isSome) (hText : r.switchText = w.file.readText)
    (hSettled : ∀ touchedNs ∈ w.touchedNs, (touchedNs : ℚ) + ttlSeconds * 10 ^ 9 ≤ r.switchNs) :
    w.server.startFire m r = underOrder w.server m (orderCount w.server m r.balanceDollars) wirePrice
        r (w.standing file.order) ∧
      (runCli ["status"] path {} w.file r.switchNs).exitCode =
        (if (w.standing file.order).isSome then 2 else 0) := by
  have hStart : Watched ttlSeconds file.order { server, file, nowNs := startNs } := by
    refine ⟨by rw [hNew]; rfl, fun s hSwitch => ?_, rfl⟩
    obtain rfl : { ttlSeconds } = s := Option.some_inj.mp (hNew.symm.trans hSwitch)
    exact ⟨rfl, fun _ hValue => (by cases hValue), fun _ hValue => (by cases hValue)⟩
  have hWatched : Watched ttlSeconds file.order w :=
    (preserves_watched path ttlSeconds file.order).run hRun hStart
  obtain ⟨s, hSwitch⟩ := Option.isSome_iff_exists.mp hWatched.present
  have hAnswer : (s.isEngaged r.switchExists r.switchNs).1 = w.file.isSome := by
    rw [hExists]
    exact (hWatched.switch s hSwitch).answer hSettled
  refine ⟨?_, ?_⟩
  · rw [← hWatched.order, ← guardFire_underOrder hSwitch hAnswer hText]
    simp only [ExecutorServer.startFire, hReal, Bool.false_eq_true, if_false, hTradeable,
      and_self, not_true_eq_false, hSnap, if_neg (not_lt.mpr hCount)]
  · rw [← hWatched.order]
    exact (status_tells path w.file r.switchNs).1

def haltedExecutor : WatchedExecutor :=
  commanded "data/killswitch" { server := demoServer, file := none, nowNs := 0 }
    (.cli ["engage", "fills", "look", "wrong"]) 5

def haltedWake : WakeMessage :=
  { correlationId := "corr-1", marketTicker := "KX-A-1", direction := "yes", kalshiPrice := 1 / 2,
    edge := 1 / 10, wirePriceYesDollars := 1 / 2 }

def haltedReadings : FireReadings :=
  { demoReadings with
    switchExists := true
    switchText := haltedExecutor.file.readText
    switchNs := 1000000005 }

theorem fire_obeys_halted :
    haltedExecutor.server.startFire haltedWake haltedReadings =
      underOrder demoServer haltedWake 4 (1 / 2) haltedReadings (some "fills look wrong") := by
  have hOrder : haltedExecutor.standing (SwitchFile.order none) = some "fills look wrong" := by
    decide +kernel
  have hCount : orderCount haltedExecutor.server haltedWake (some 100) = 4 := by decide +kernel
  have hObeys := (@fire_obeys haltedExecutor "data/killswitch" demoServer 1 rfl none 0
    (.single (.command (by decide))) haltedWake haltedReadings (1 / 2) rfl
    (by decide +kernel) (by decide +kernel) (by decide +kernel) rfl rfl
    (fun touchedNs hTouched => by
      cases hTouched
      norm_num [haltedReadings])).1
  rw [hOrder] at hObeys
  exact hObeys.trans (congrArg (fun count => underOrder demoServer haltedWake count (1 / 2)
    haltedReadings (some "fills look wrong")) hCount)

end WatchedExecutor

end KalshiBot.Ipc
