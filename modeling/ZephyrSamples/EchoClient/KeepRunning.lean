import ZephyrSamples.Lib.Runs

/-!
# The main loop of the echo client

`main` of `echo-client.c` statement by statement, with `event_handler` for the L4 events, under
CONFIG_NET_CONNECTION_MANAGER.  Main is never left waiting for `run_app` while the network is up,
exactly when a round that ends with an error ends in a network that has gone down, or with
`run_app` given again.
-/

namespace ZephyrSamples
namespace EchoClient
namespace KeepRunning

open Runs

/-- The statement of `main` that comes next. -/
inductive MainPc where
  | whileIterations
  | takeRunApp
  | startUdpAndTcp
  | whileConnected
  | runUdpAndTcp
  | ifIterations
  | stopUdpAndTcp
  | exited
  deriving DecidableEq, Repr

/-- The statics and the locals of `main`; `up` says that the last L4 event was CONNECTED. -/
structure App where
  connected : Bool
  runApp : Bool
  pc : MainPc
  ret : Int
  i : Int
  up : Bool
  deriving DecidableEq, Repr

/-- `main` after `init_app`. -/
def initApp : App where
  connected := false
  runApp := false
  pc := .whileIterations
  ret := 0
  i := 0
  up := false

/-- A statement of `main`, with what `start_udp_and_tcp` or `run_udp_and_tcp` returns in it, or an
L4 event. -/
inductive Event where
  | main (ret : Int)
  | l4Connected
  | l4Disconnected
  deriving DecidableEq, Repr

/-- `iterations == 0 || i < iterations` -/
def App.goesOn (iterations : Int) (s : App) : Prop := iterations = 0 ∨ s.i < iterations

instance (iterations : Int) (s : App) : Decidable (s.goesOn iterations) :=
  inferInstanceAs (Decidable (_ ∨ _))

def mainStep (iterations : Int) (s : App) (ret : Int) : App :=
  match s.pc with
  | .whileIterations =>
    if s.goesOn iterations then { s with pc := .takeRunApp } else { s with pc := .exited }
  | .takeRunApp =>
    -- Without a token the thread stays in `k_sem_take`.
    if s.runApp then { s with runApp := false, pc := .startUdpAndTcp } else s
  | .startUdpAndTcp => { s with ret := ret, pc := .whileConnected }
  | .whileConnected =>
    if s.connected && s.ret == 0 then { s with pc := .runUdpAndTcp }
    else { s with pc := .stopUdpAndTcp }
  | .runUdpAndTcp => { s with ret := ret, pc := .ifIterations }
  | .ifIterations =>
    if 0 < iterations then
      if iterations ≤ s.i + 1 then { s with i := s.i + 1, pc := .stopUdpAndTcp }
      else { s with i := s.i + 1, pc := .whileConnected }
    else { s with pc := .whileConnected }
  | .stopUdpAndTcp => { s with pc := .whileIterations }
  | .exited => s

def eventHandler (s : App) (connected : Bool) : App :=
  { s with connected := connected, runApp := connected, up := connected }

def step (iterations : Int) (s : App) : Event → App
  | .main ret => mainStep iterations s ret
  | .l4Connected => eventHandler s true
  | .l4Disconnected => eventHandler s false

/-- `main` is blocked in `k_sem_take`. -/
def App.Blocked (s : App) : Prop := s.pc = .takeRunApp ∧ s.runApp = false

/-- While the network is up and there are iterations to do, `main` is not blocked. -/
def KeepsRunning (iterations : Int) (s : App) : Prop :=
  s.up = true → s.goesOn iterations → ¬ s.Blocked

/-- The test of the inner loop ends it when the network is not connected. -/
def LeavesWhenDown (iterations : Int) (s : App) : Event → Prop
  | .main ret =>
    s.pc = .whileConnected → s.connected = false →
      (step iterations s (.main ret)).pc = .stopUdpAndTcp
  | .l4Connected => True
  | .l4Disconnected => True

/-- A round that has ended with an error is followed by another one only if the network has gone
down or `run_app` has been given again. -/
def Steady (iterations : Int) (s : App) : Event → Prop
  | .main _ =>
    s.pc = .whileIterations → s.goesOn iterations → s.ret ≠ 0 → s.up = true → s.runApp = true
  | .l4Connected => True
  | .l4Disconnected => True

/-- With the network up and no token, a round is under way, or it has ended with an error or with
the last iteration. -/
structure Inv (iterations : Int) (s : App) : Prop where
  connected : s.connected = s.up
  ended : s.pc = .stopUdpAndTcp ∨ s.pc = .whileIterations → s.up = true → s.runApp = false →
    s.ret ≠ 0 ∨ ¬ s.goesOn iterations

variable {iterations : Int} {s : App}

theorem not_goesOn_of_le (h : 0 < iterations) (hi : iterations ≤ s.i) :
    ¬ s.goesOn iterations := by
  rintro (hzero | hlt)
  · omega
  · omega

theorem inv_initApp : Inv iterations initApp where
  connected := rfl
  ended _ hup := nomatch hup

theorem inv_mainStep (h : Inv iterations s) (ret : Int) :
    Inv iterations (mainStep iterations s ret) := by
  obtain ⟨hconnected, hended⟩ := h
  unfold mainStep
  cases hpc : s.pc with
  | whileIterations =>
    simp only
    split
    · exact ⟨hconnected, by simp⟩
    · exact ⟨hconnected, by simp⟩
  | takeRunApp =>
    simp only
    split
    · exact ⟨hconnected, by simp⟩
    · exact ⟨hconnected, hended⟩
  | startUdpAndTcp => exact ⟨hconnected, by simp⟩
  | whileConnected =>
    simp only
    split
    · exact ⟨hconnected, by simp⟩
    · rename_i htest
      refine ⟨hconnected, fun _ hup _ => .inl fun hret => htest ?_⟩
      have hconn : s.connected = true := hconnected.trans hup
      have hzero : s.ret = 0 := hret
      simp [hconn, hzero]
  | runUdpAndTcp => exact ⟨hconnected, by simp⟩
  | ifIterations =>
    simp only
    split
    · rename_i hpos
      split
      · rename_i hlast
        exact ⟨hconnected, fun _ _ _ => .inr (not_goesOn_of_le hpos hlast)⟩
      · exact ⟨hconnected, by simp⟩
    · exact ⟨hconnected, by simp⟩
  | stopUdpAndTcp => exact ⟨hconnected, fun _ => hended (.inl hpc)⟩
  | exited => exact ⟨hconnected, hended⟩

theorem inv_step (h : Inv iterations s) (e : Event) : Inv iterations (step iterations s e) := by
  cases e with
  | main ret => exact inv_mainStep h ret
  | l4Connected => exact ⟨rfl, fun _ _ htoken => nomatch htoken⟩
  | l4Disconnected => exact ⟨rfl, fun _ hup => nomatch hup⟩

theorem keepsRunning_of_pc {t : App} (h : t.pc ≠ .takeRunApp) : KeepsRunning iterations t :=
  fun _ _ hblocked => h hblocked.1

theorem keepsRunning_mainStep_iff (h : Inv iterations s) (hs : KeepsRunning iterations s)
    (ret : Int) :
    KeepsRunning iterations (mainStep iterations s ret) ↔ Steady iterations s (.main ret) := by
  by_cases hpc : s.pc = .whileIterations
  · by_cases hgoes : s.goesOn iterations
    · have hnext : mainStep iterations s ret = { s with pc := .takeRunApp } := by
        simp [mainStep, hpc, hgoes]
      rw [hnext]
      constructor
      · intro hkeeps _ _ _ hup
        by_contra htoken
        exact hkeeps hup hgoes ⟨rfl, by simpa using htoken⟩
      · rintro hsteady hup - ⟨-, htoken⟩
        have hret : s.ret ≠ 0 := (h.ended (.inr hpc) hup htoken).resolve_right (not_not.mpr hgoes)
        have hgiven : s.runApp = true := hsteady hpc hgoes hret hup
        exact Bool.noConfusion (hgiven.symm.trans htoken)
    · have hnext : mainStep iterations s ret = { s with pc := .exited } := by
        simp [mainStep, hpc, hgoes]
      rw [hnext]
      exact ⟨fun _ _ hgoes' => absurd hgoes' hgoes, fun _ => keepsRunning_of_pc (by simp)⟩
  · refine ⟨fun _ hpc' => absurd hpc' hpc, fun _ => ?_⟩
    by_cases htake : s.pc = .takeRunApp
    · unfold mainStep
      rw [htake]
      simp only
      split
      · exact keepsRunning_of_pc (by simp)
      · exact hs
    · apply keepsRunning_of_pc
      unfold mainStep
      cases hpc' : s.pc <;> grind

theorem keepsRunning_step_iff (h : Inv iterations s) (hs : KeepsRunning iterations s) (e : Event) :
    KeepsRunning iterations (step iterations s e) ↔ Steady iterations s e := by
  cases e with
  | main ret => exact keepsRunning_mainStep_iff h hs ret
  | l4Connected => exact ⟨fun _ => trivial, fun _ _ _ hblocked => nomatch hblocked.2⟩
  | l4Disconnected => exact ⟨fun _ => trivial, fun _ hup => nomatch hup⟩

theorem leavesWhenDown (s : App) (e : Event) : LeavesWhenDown iterations s e := by
  cases e with
  | main ret =>
    intro hpc hdown
    simp [step, mainStep, hpc, hdown]
  | l4Connected => trivial
  | l4Disconnected => trivial

/-- Every run, for every order of the L4 events and the statements of `main`. -/
theorem keeps_running_iff_steady (iterations : Int) (es : List Event) :
    (Always (step iterations) (KeepsRunning iterations) initApp es ∧
      Along (step iterations) (LeavesWhenDown iterations) initApp es) ↔
    Along (step iterations) (Steady iterations) initApp es := by
  have hstart : KeepsRunning iterations initApp := keepsRunning_of_pc (by decide)
  have halways : Always (step iterations) (KeepsRunning iterations) initApp es ↔
      Along (step iterations) (Steady iterations) initApp es :=
    always_iff_along (step iterations) (I := Inv iterations) (fun _ e h => inv_step h e)
      (fun _ e h hs => keepsRunning_step_iff h hs e) inv_initApp hstart es
  have hleaves : Along (step iterations) (LeavesWhenDown iterations) initApp es :=
    along_of_forall (step iterations) fun s e _ => leavesWhenDown s e
  exact ⟨fun h => halways.mp h.1, fun h => ⟨halways.mpr h, hleaves⟩⟩

/-- The network comes up, and a round ends with an error. -/
def failedRound : List Event :=
  [.l4Connected, .main 0, .main 0, .main 0, .main 0, .main (-5), .main 0, .main 0, .main 0,
    .main 0]

/-- In the end `main` waits for a token that only another CONNECTED event brings. -/
theorem failed_round_blocks :
    ¬ Always (step 0) (KeepsRunning 0) initApp failedRound := by
  have hlast : run (step 0) initApp failedRound =
      { connected := true, runApp := false, pc := .takeRunApp, ret := -5, i := 0, up := true } := by
    decide
  apply not_always_of_last (step 0) hlast
  intro hkeeps
  exact hkeeps rfl (.inl rfl) ⟨rfl, rfl⟩

end KeepRunning
end EchoClient
end ZephyrSamples
