import PushFeed.Proofs.Channel.Closing
import PushFeed.Proofs.Session.Run
/-!
# What a session's channels take in

At all times a channel listens on the connection it follows only, and has not seen that
connection on its way out. So each of its turns either takes in all frames that wait, or
is the one in which it finds the connection gone and loses what waits but for one frame
at most (`handled_turn_run`).
-/

namespace PushFeed

namespace Session

variable {url : String} {options : ChannelOptions} {events : List SessionEvent} {i : Nat}
  {c : Channel}

theorem moored_run (hc : ((start url options).run events).channels[i]? = some c) : c.Moored := by
  refine channel_run (fun topic request opts kind => ?_) Channel.Move.moored (fun _ _ => nofun) hc
  rcases Channel.opened_cases topic request opts kind with heq | heq <;> rw [heq] <;> exact nofun

theorem hopeful_run (hc : ((start url options).run events).channels[i]? = some c) :
    c.Hopeful := by
  refine channel_run (fun topic request opts kind => ?_) Channel.Move.hopeful (fun _ _ => nofun) hc
  rcases Channel.opened_cases topic request opts kind with heq | heq <;> rw [heq] <;> exact nofun

/-- **What a turn takes in, in any run.** No frame waits after the turn of a channel that
follows a connection. It has taken in all that waited, unless the connection was on its
way out: then at most the one that came before it looked. -/
theorem handled_turn_run {g : Nat} {seen : ReadyState}
    (hc : ((start url options).run events).channels[i]? = some c)
    (hp : c.phase = .following g seen) (first : Precedence) :
    let f := ((start url options).run events).feed
    let waiting := (c.inbox f.hub).length
    (c.turn f first).1.inbox (c.turn f first).2.hub = [] ∧
      (c.turn f first).1.handled = c.handled +
        if (f.hub.stateOf g).isTerminal then min (Channel.ahead first) waiting else waiting := by
  have hs := sound_run url options events
  intro f waiting
  split
  · rename_i ht
    refine Channel.handled_turn_of_isTerminal hs hp first (fun heq => ?_) ht
    have hseen := hopeful_run hc g seen hp
    rw [← heq, ht] at hseen
    cases hseen
  · rename_i ht
    exact Channel.handled_turn hs (moored_run hc) hp first (.inr (by simpa using ht))

/-- A burst of two frames that a close follows at once is lost, or all of it but the first
frame. -/
example : [Precedence.stateFirst, .frameFirst].map (fun first =>
    ((start "ws://localhost:4010/ws" {}).run
      [.openChannel (.orderBook "mkt_1" "/proto") (.subscribe "orderbook_update:mkt_1") {} .book,
        .turn 0 .stateFirst, .act 1 .markOpen, .turn 0 .stateFirst, .act 1 (.dispatch [0x08]),
        .act 1 (.dispatch [0x08]), .act 1 .dropDriver, .turn 0 first]).channels.map
          fun c => (c.attached, c.handled)) = [[(none, 0)], [(none, 1)]] := by
  decide +kernel

end Session

end PushFeed
