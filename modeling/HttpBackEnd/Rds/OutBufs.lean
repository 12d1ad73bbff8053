import HttpBackEnd.Json.Reader
import HttpBackEnd.Library.Packing

/-! # The buffers of the drizzle module and of the JSON filter

Both modules ask for memory, write into it and submit it. What does not fit the buffer they
are at is postponed: the drizzle module puts it into a buffer of its own, so that no atom is
split, and the JSON filter spreads it over buffers of one size.
-/

namespace HttpBackEnd.Rds

open Json Packing

/-- A buffer on its way: what is between `pos` and `last`, and `last_buf`. -/
structure OutBuf where
  data : Bytes := []
  lastBuf : Bool := false
deriving DecidableEq, Repr

/-- `conf->buf_size`. -/
structure BufSize where
  size : Nat
  positive : 0 < size

/-- `out_buf` with `avail_out`, the chain `out` and `seen_stream_end`. -/
structure OutBufs where
  outBuf : OutBuf := {}
  availOut : Nat := 0
  out : List OutBuf := []
  seenStreamEnd : Bool := false
deriving DecidableEq, Repr

namespace OutBufs

variable (bufs : OutBufs)

/-- `ngx_http_drizzle_get_buf` and `ngx_http_rds_json_get_buf`. A buffer that is used again
is as good as a new one. -/
def getBuf (conf : BufSize) : OutBufs :=
  if bufs.availOut ≠ 0 then bufs else { bufs with outBuf := {}, availOut := conf.size }

/-- The buffer joins the chain. -/
def save : OutBufs := { bufs with out := bufs.out ++ [bufs.outBuf] }

/-- Bytes for the buffer. -/
def put (data : Bytes) : OutBufs :=
  { bufs with
    outBuf := { bufs.outBuf with data := bufs.outBuf.data ++ data }
    availOut := bufs.availOut - data.length }

/-- Whether the buffer is the last one. -/
def mark (lastBuf : Bool) : OutBufs := { bufs with outBuf := { bufs.outBuf with lastBuf } }

/-- As much of some bytes as the buffer has room for. -/
def pour (postponed : Bytes) : OutBufs := bufs.put (postponed.take bufs.availOut)

variable {bufs} {conf : BufSize}

theorem availOut_getBuf : (bufs.getBuf conf).availOut ≠ 0 := by
  unfold getBuf
  split
  · assumption
  · exact Nat.ne_of_gt conf.positive

theorem availOut_pour (postponed : Bytes) :
    (bufs.pour postponed).availOut = bufs.availOut - postponed.length := by
  simp only [pour, put, List.length_take]
  omega

/-- The loop of `ngx_http_rds_json_submit_mem` over what was postponed. The buffer is
marked only if it ends with the data. -/
def fill (conf : BufSize) (lastBuf : Bool) (bufs : OutBufs) (postponed : Bytes) : OutBufs :=
  if (bufs.pour postponed).availOut ≠ 0 then bufs.pour postponed
  else if postponed.drop bufs.availOut = [] then ((bufs.pour postponed).mark lastBuf).save
  else fill conf lastBuf ((bufs.pour postponed).save.getBuf conf) (postponed.drop bufs.availOut)
termination_by 2 * postponed.length + if bufs.availOut = 0 then 1 else 0
decreasing_by
  rename_i _ more
  have behind : postponed.length - bufs.availOut ≠ 0 := by
    rwa [← List.length_drop, Ne, List.length_eq_zero_iff]
  rw [if_neg availOut_getBuf, List.length_drop]
  split <;> omega

variable (bufs)

/-- A buffer that is full joins the chain. -/
def saveFull : OutBufs := if bufs.availOut = 0 then bufs.save else bufs

/-- `ngx_http_rds_json_request_mem`, the bytes, and `ngx_http_rds_json_submit_mem`. -/
def submit (conf : BufSize) (lastBuf : Bool) (data : Bytes) : OutBufs :=
  if (bufs.getBuf conf).availOut < data.length then (bufs.getBuf conf).fill conf lastBuf data
  else (((bufs.getBuf conf).put data).mark lastBuf).saveFull

/-- A buffer that holds something joins the chain before another one takes its place. -/
def saveSome : OutBufs := if bufs.outBuf.data ≠ [] then bufs.save else bufs

/-- A new buffer with some bytes, larger than the others if need be. -/
def renew (conf : BufSize) (data : Bytes) : OutBufs :=
  { bufs with outBuf := { data }, availOut := max data.length conf.size - data.length }

/-- `ngx_http_drizzle_request_mem`, the bytes, and `ngx_http_drizzle_submit_mem`. Nothing is
postponed that would fit, so that the loop behind the first case is never reached. -/
def submitWhole (conf : BufSize) (data : Bytes) : OutBufs :=
  if (bufs.getBuf conf).availOut < data.length then
    ((bufs.getBuf conf).saveSome.renew conf data).saveFull
  else ((bufs.getBuf conf).put data).saveFull

/-- `ngx_http_drizzle_output_bufs` and `ngx_http_rds_json_output_bufs`, up to the next
filter: at the end of the stream the last buffer goes too. -/
def close : OutBufs :=
  if bufs.seenStreamEnd then
    if bufs.availOut ≠ 0 then { bufs.save with availOut := 0, seenStreamEnd := false }
    else { bufs with seenStreamEnd := false }
  else bufs

/-- The chain has been passed on. -/
def passed : OutBufs := { bufs with out := [] }

/-! ## What has been written -/

/-- What is in a buffer that is not in the chain yet. -/
def held : Bytes := if bufs.availOut = 0 then [] else bufs.outBuf.data

/-- The bytes of the chain, and those that are held. -/
def text : Bytes := bufs.out.flatMap OutBuf.data ++ bufs.held

variable {bufs}

theorem out_getBuf : (bufs.getBuf conf).out = bufs.out := by
  unfold getBuf
  split <;> rfl

/-- A new buffer holds nothing. -/
theorem data_getBuf : (bufs.getBuf conf).outBuf.data = bufs.held := by
  unfold getBuf held
  by_cases full : bufs.availOut = 0 <;> simp [full]

theorem held_of_room (room : bufs.availOut ≠ 0) : bufs.held = bufs.outBuf.data := if_neg room

theorem held_of_full (full : bufs.availOut = 0) : bufs.held = [] := if_pos full

@[simp] theorem text_getBuf : (bufs.getBuf conf).text = bufs.text := by
  rw [text, text, out_getBuf, held_of_room availOut_getBuf, data_getBuf]

/-- Bytes that leave room are held. -/
theorem text_put {data : Bytes} (room : bufs.availOut ≠ 0)
    (more : (bufs.put data).availOut ≠ 0) : (bufs.put data).text = bufs.text ++ data := by
  rw [text, text, held_of_room more, held_of_room room, List.append_assoc]
  rfl

/-- Bytes that fill the buffer are in the chain. -/
theorem text_put_save {data : Bytes} (lastBuf : Bool) (room : bufs.availOut ≠ 0)
    (full : (bufs.put data).availOut = 0) :
    ((bufs.put data).mark lastBuf).save.text = bufs.text ++ data := by
  rw [text, text, held_of_full (show ((bufs.put data).mark lastBuf).save.availOut = 0 from full),
    held_of_room room]
  simp [save, mark, put]

theorem mark_false (unmarked : bufs.outBuf.lastBuf = false) : bufs.mark false = bufs := by
  obtain ⟨⟨data, lastBuf⟩, availOut, out, seenStreamEnd⟩ := bufs
  obtain rfl : lastBuf = false := unmarked
  rfl

/-- **What is postponed is spread over the buffers whole.** -/
theorem text_fill (lastBuf : Bool) (postponed : Bytes) (room : bufs.availOut ≠ 0) :
    (bufs.fill conf lastBuf postponed).text = bufs.text ++ postponed := by
  fun_induction fill conf lastBuf bufs postponed with
  | case1 bufs postponed more =>
      have short : postponed.length ≤ bufs.availOut := by
        rw [availOut_pour] at more
        omega
      rw [pour, text_put room more, List.take_of_length_le short]
  | case2 bufs postponed full ended =>
      have short : postponed.take bufs.availOut = postponed := by
        rw [← List.append_nil (postponed.take bufs.availOut), ← ended, List.take_append_drop]
      rw [pour, text_put_save lastBuf room (not_not.mp full), short]
  | case3 bufs postponed full more ih =>
      have unmarked : (bufs.pour postponed).save.text =
          bufs.text ++ postponed.take bufs.availOut :=
        text_put_save bufs.outBuf.lastBuf room (not_not.mp full)
      rw [ih availOut_getBuf, text_getBuf, unmarked, List.append_assoc, List.take_append_drop]

/-- **What is submitted is in the buffers.** -/
theorem text_submit (lastBuf : Bool) (data : Bytes) :
    (bufs.submit conf lastBuf data).text = bufs.text ++ data := by
  have room : (bufs.getBuf conf).availOut ≠ 0 := availOut_getBuf
  unfold submit
  by_cases postponed : (bufs.getBuf conf).availOut < data.length
  · rw [if_pos postponed, text_fill lastBuf data room, text_getBuf]
  · rw [if_neg postponed, saveFull]
    split
    · rename_i full
      rw [text_put_save lastBuf room full, text_getBuf]
    · rename_i more
      exact (text_put room more).trans (congrArg (· ++ data) text_getBuf)

theorem text_close : bufs.close.text = bufs.text := by
  unfold close
  split
  · split
    · rename_i room
      rw [text, text, held_of_room room]
      simp [save, held]
    · rfl
  · rfl

/-! ## Atoms stay whole -/

/-- The chain and what is held lead from a place to a place, cut where they may be. -/
def Packed {Place : Type*} (cuts : Cuts Place UInt8) (first : Place) (bufs : OutBufs)
    (last : Place) : Prop :=
  ∃ middle, cuts.Chained first (bufs.out.map OutBuf.data) middle ∧
    cuts.Within middle bufs.held last

section Packed

variable {Place : Type*} {cuts : Cuts Place UInt8} {first last next : Place} {data : Bytes}

theorem Packed.getBuf (packed : Packed cuts first bufs last) :
    Packed cuts first (bufs.getBuf conf) last := by
  obtain ⟨middle, chained, within⟩ := packed
  refine ⟨middle, ?_, ?_⟩
  · rwa [out_getBuf]
  · rwa [held_of_room availOut_getBuf, data_getBuf]

/-- A buffer that is full joins the chain with what it holds. -/
theorem Packed.saveFull {middle : Place}
    (chained : cuts.Chained first (bufs.out.map OutBuf.data) middle)
    (within : cuts.Within middle bufs.outBuf.data last)
    (present : bufs.availOut = 0 → bufs.outBuf.data ≠ []) :
    Packed cuts first bufs.saveFull last := by
  unfold OutBufs.saveFull
  split
  · rename_i full
    refine ⟨last, ?_, ?_⟩
    · rw [save, List.map_append]
      exact chained.concat (present full) within
    · rw [held_of_full (show bufs.save.availOut = 0 from full)]
      exact cuts.nil last
  · rename_i room
    exact ⟨middle, chained, by rwa [held_of_room room]⟩

/-- What the buffers are before a full one joins the chain. -/
theorem Packed.submitted (packed : Packed cuts first bufs last)
    (within : cuts.Within last data next) : ∃ (now : OutBufs) (middle : Place),
      bufs.submitWhole conf data = now.saveFull ∧
        cuts.Chained first (now.out.map OutBuf.data) middle ∧
        cuts.Within middle now.outBuf.data next ∧
        (now.availOut = 0 ∨ data ≠ [] → now.outBuf.data ≠ []) := by
  have room : (bufs.getBuf conf).availOut ≠ 0 := availOut_getBuf
  obtain ⟨middle, chained, held⟩ := show Packed cuts first (bufs.getBuf conf) last from
    packed.getBuf
  rw [held_of_room room] at held
  unfold OutBufs.submitWhole
  split
  · rename_i postponed
    have present : data ≠ [] := by
      rintro rfl
      cases postponed
    -- what is in the buffer goes ahead of the new one
    obtain ⟨place, saved, ahead⟩ : ∃ place,
        cuts.Chained first ((bufs.getBuf conf).saveSome.out.map OutBuf.data) place ∧
          cuts.Within place data next := by
      unfold saveSome
      split
      · rename_i used
        refine ⟨last, ?_, within⟩
        rw [save, List.map_append]
        exact chained.concat used held
      · rename_i unused
        rw [not_not.mp unused] at held
        exact ⟨middle, chained, cuts.append held within⟩
    exact ⟨_, place, rfl, saved, ahead, fun _ => present⟩
  · rename_i fits
    refine ⟨_, middle, rfl, chained, cuts.append held within, fun ends => ?_⟩
    have present : data ≠ [] := by
      rcases ends with full | present
      · rintro rfl
        exact room full
      · exact present
    exact List.append_ne_nil_of_right_ne_nil _ present

/-- **No buffer ends inside an atom.** -/
theorem Packed.submitWhole (packed : Packed cuts first bufs last)
    (within : cuts.Within last data next) :
    Packed cuts first (bufs.submitWhole conf data) next := by
  obtain ⟨now, middle, submitted, chained, held, present⟩ := packed.submitted within
  rw [submitted]
  exact Packed.saveFull chained held fun full => present (.inl full)

end Packed

/-! ## The end of the stream -/

/-- A buffer that is full and not the last. -/
def IsFull (conf : BufSize) (buf : OutBuf) : Prop :=
  buf.data.length = conf.size ∧ buf.lastBuf = false

/-- Full buffers in the chain, one that is not, and more to come. -/
structure Even (conf : BufSize) (bufs : OutBufs) : Prop where
  goesOn : bufs.seenStreamEnd = false
  chain : ∀ buf ∈ bufs.out, IsFull conf buf
  room : bufs.availOut ≠ 0 →
    bufs.outBuf.data.length + bufs.availOut = conf.size ∧ bufs.outBuf.lastBuf = false

theorem even_initial (conf : BufSize) : Even conf {} :=
  ⟨rfl, fun _ member => (List.not_mem_nil member).elim, fun room => absurd rfl room⟩

theorem Even.getBuf (even : Even conf bufs) : Even conf (bufs.getBuf conf) := by
  refine ⟨?_, ?_, fun _ => ?_⟩
  · unfold OutBufs.getBuf
    split <;> exact even.goesOn
  · rw [out_getBuf]
    exact even.chain
  · unfold OutBufs.getBuf
    split
    · rename_i room
      exact even.room room
    · exact ⟨Nat.zero_add _, rfl⟩

/-- Bytes that fit leave the buffer even. -/
theorem Even.put (even : Even conf bufs) (room : bufs.availOut ≠ 0) {data : Bytes}
    (fits : data.length ≤ bufs.availOut) :
    (bufs.put data).outBuf.data.length + (bufs.put data).availOut = conf.size ∧
      (bufs.put data).outBuf.lastBuf = false := by
  obtain ⟨whole, unmarked⟩ := even.room room
  refine ⟨?_, unmarked⟩
  simp only [OutBufs.put, List.length_append]
  omega

/-- Full buffers, of which the last may be marked. -/
def EndsFull (conf : BufSize) (lastBuf : Bool) (bufs : OutBufs) : Prop :=
  bufs.seenStreamEnd = false ∧ bufs.availOut = 0 ∧ ∃ front last, bufs.out = front ++ [last] ∧
    (∀ buf ∈ front, IsFull conf buf) ∧ last.data.length = conf.size ∧ last.lastBuf = lastBuf

theorem EndsFull.even (ends : EndsFull conf false bufs) : Even conf bufs := by
  obtain ⟨goesOn, full, front, last, chain, before, size, unmarked⟩ := ends
  refine ⟨goesOn, fun buf member => ?_, fun room => absurd full room⟩
  rw [chain] at member
  rcases List.mem_append.mp member with member | member
  · exact before buf member
  · obtain rfl := List.mem_singleton.mp member
    exact ⟨size, unmarked⟩

/-- A buffer that has become full joins the chain. -/
theorem endsFull_save (bufs : OutBufs) (lastBuf : Bool) (goesOn : bufs.seenStreamEnd = false)
    (chain : ∀ buf ∈ bufs.out, IsFull conf buf)
    (whole : bufs.outBuf.data.length + bufs.availOut = conf.size) (full : bufs.availOut = 0) :
    EndsFull conf lastBuf (bufs.mark lastBuf).save := by
  refine ⟨goesOn, full, bufs.out, (bufs.mark lastBuf).outBuf, rfl, chain, ?_, rfl⟩
  rw [full, Nat.add_zero] at whole
  exact whole

/-- What was postponed ends in a buffer with room, or fills the last one. -/
theorem Even.fill (even : Even conf bufs) (room : bufs.availOut ≠ 0) (lastBuf : Bool)
    {postponed : Bytes} (present : postponed ≠ []) :
    EndsFull conf lastBuf (bufs.fill conf lastBuf postponed) ∨
      (Even conf (bufs.fill conf lastBuf postponed) ∧
        (bufs.fill conf lastBuf postponed).availOut ≠ 0 ∧
        (bufs.fill conf lastBuf postponed).outBuf.data ≠ []) := by
  fun_induction OutBufs.fill conf lastBuf bufs postponed with
  | case1 bufs postponed more =>
      have even' := even.put room (List.length_take_le bufs.availOut postponed)
      refine .inr ⟨⟨even.goesOn, even.chain, fun _ => even'⟩, more, ?_⟩
      apply List.append_ne_nil_of_right_ne_nil
      rw [Ne, List.take_eq_nil_iff]
      exact not_or.mpr ⟨room, present⟩
  | case2 bufs postponed full ended =>
      have even' := even.put room (List.length_take_le bufs.availOut postponed)
      exact .inl (endsFull_save (bufs.pour postponed) lastBuf even.goesOn even.chain even'.1
        (not_not.mp full))
  | case3 bufs postponed full more ih =>
      obtain ⟨whole, unmarked⟩ := even.put room (List.length_take_le bufs.availOut postponed)
      have saved : EndsFull conf false (bufs.pour postponed).save := by
        have ends := endsFull_save (bufs.pour postponed) false even.goesOn even.chain whole
          (not_not.mp full)
        rwa [mark_false (show (bufs.pour postponed).outBuf.lastBuf = false from unmarked)] at ends
      exact ih saved.even.getBuf availOut_getBuf more

/-- Data that is not the end keeps the buffers even. -/
theorem Even.submit (even : Even conf bufs) (data : Bytes) :
    Even conf (bufs.submit conf false data) := by
  have room : (bufs.getBuf conf).availOut ≠ 0 := availOut_getBuf
  unfold OutBufs.submit
  split
  · rename_i postponed
    have present : data ≠ [] := by
      rintro rfl
      cases postponed
    rcases even.getBuf.fill room false present with ends | ⟨even', _, _⟩
    · exact ends.even
    · exact even'
  · rename_i fits
    obtain ⟨whole, unmarked⟩ := even.getBuf.put room (Nat.le_of_not_lt fits)
    rw [mark_false unmarked]
    unfold OutBufs.saveFull
    split
    · rename_i full
      have ends := endsFull_save ((bufs.getBuf conf).put data) false even.getBuf.goesOn
        even.getBuf.chain whole full
      rw [mark_false unmarked] at ends
      exact ends.even
    · exact ⟨even.getBuf.goesOn, even.getBuf.chain, fun _ => ⟨whole, unmarked⟩⟩

/-- The buffers that are full are a multiple of their size. -/
theorem Even.length_chain {chain : List OutBuf} (full : ∀ buf ∈ chain, IsFull conf buf) :
    (chain.flatMap OutBuf.data).length = conf.size * chain.length := by
  induction chain with
  | nil => rfl
  | cons buf chain ih =>
      rw [List.flatMap_cons, List.length_append, (full buf List.mem_cons_self).1,
        ih fun other member => full other (List.mem_cons_of_mem _ member), List.length_cons,
        Nat.mul_succ, Nat.add_comm]

/-- What an even output holds is what its text has over full buffers. -/
theorem Even.length_text (even : Even conf bufs) :
    bufs.text.length % conf.size = bufs.held.length := by
  have positive := conf.positive
  rw [text, List.length_append, Even.length_chain even.chain, Nat.mul_add_mod]
  apply Nat.mod_eq_of_lt
  by_cases full : bufs.availOut = 0
  · rwa [held_of_full full]
  · obtain ⟨whole, _⟩ := even.room full
    rw [held_of_room full]
    omega

/-- `seen_stream_end` is set. -/
def endStream (bufs : OutBufs) : OutBufs := { bufs with seenStreamEnd := true }

theorem text_endStream : bufs.endStream.text = bufs.text := rfl

theorem held_close : bufs.endStream.close.held = [] := by
  unfold endStream close
  simp only [↓reduceIte]
  split
  · rfl
  · rename_i full
    exact if_pos (not_not.mp full)

/-- At the end the chain has it all. -/
theorem flatMap_close (lastBuf : Bool) (data : Bytes) :
    (bufs.submit conf lastBuf data).endStream.close.out.flatMap OutBuf.data =
      bufs.text ++ data := by
  have whole : (bufs.submit conf lastBuf data).endStream.close.text = bufs.text ++ data := by
    rw [text_close, text_endStream, text_submit]
  rwa [text, held_close, List.append_nil] at whole

/-- The last buffer is in the chain already, or joins it now. -/
theorem out_close : bufs.endStream.close.out =
    if bufs.availOut = 0 then bufs.out else bufs.out ++ [bufs.outBuf] := by
  unfold endStream close
  simp only [↓reduceIte]
  by_cases full : bufs.availOut = 0 <;> simp [full, save]

/-- A buffer that joins the chain at the end has joined it once. -/
theorem out_close_saveFull : bufs.saveFull.endStream.close.out = bufs.out ++ [bufs.outBuf] := by
  rw [out_close]
  by_cases full : bufs.availOut = 0 <;> simp [saveFull, full, save]

/-- What is alone in the buffers is alone in the chain. -/
theorem out_close_submitWhole (conf : BufSize) (data : Bytes) :
    (submitWhole {} conf data).endStream.close.out.map OutBuf.data = [data] := by
  unfold submitWhole
  split
  · rw [out_close_saveFull]
    simp [saveSome, renew, getBuf]
  · rw [out_close_saveFull]
    simp [getBuf, put]

/-- With the last atom everything is in the chain. -/
theorem Packed.submitLast {Place : Type*} {cuts : Cuts Place UInt8} {first last next : Place}
    {data : Bytes} (packed : Packed cuts first bufs last) (within : cuts.Within last data next)
    (present : data ≠ []) :
    cuts.Chained first ((bufs.submitWhole conf data).endStream.close.out.map OutBuf.data) next := by
  obtain ⟨now, middle, submitted, chained, held, used⟩ := packed.submitted within
  rw [submitted, out_close_saveFull, List.map_append]
  exact chained.concat (used (.inr present)) held

theorem seenStreamEnd_submitWhole (bufs : OutBufs) (data : Bytes) :
    (bufs.submitWhole conf data).seenStreamEnd = bufs.seenStreamEnd := by
  unfold submitWhole saveFull saveSome getBuf
  repeat' split
  all_goals rfl

/-- **The end of an output.** Once the end is submitted, everything is in the chain, and its
last buffer is marked unless the end was postponed into a buffer that it did not fill. -/
theorem Even.finish (even : Even conf bufs) {data : Bytes} (present : data ≠ []) :
    ∃ front last, (bufs.submit conf true data).endStream.close.out = front ++ [last] ∧
      (∀ buf ∈ front, IsFull conf buf) ∧
      (last.lastBuf = true ↔ data.length ≤ conf.size - bufs.text.length % conf.size ∨
        (bufs.text.length + data.length) % conf.size = 0) := by
  have room : (bufs.getBuf conf).availOut ≠ 0 := availOut_getBuf
  obtain ⟨whole, unmarked⟩ := even.getBuf.room room
  have held : bufs.text.length % conf.size = (bufs.getBuf conf).outBuf.data.length := by
    rw [even.length_text, data_getBuf]
  have avail : conf.size - bufs.text.length % conf.size = (bufs.getBuf conf).availOut := by
    omega
  have total : (bufs.submit conf true data).text.length = (bufs.text ++ data).length :=
    congrArg List.length (text_submit true data)
  rw [List.length_append] at total
  rw [avail, ← total, out_close]
  by_cases postponed : (bufs.getBuf conf).availOut < data.length
  · rw [OutBufs.submit, if_pos postponed]
    rcases even.getBuf.fill room true present with
      ⟨_, full, front, last, chain, before, size, marked⟩ | ⟨even', more, some⟩
    · -- the data ends where a buffer does
      rw [if_pos full]
      refine ⟨front, last, chain, before, iff_of_true marked (.inr ?_)⟩
      rw [text, held_of_full full, chain, List.flatMap_append, List.append_nil, List.length_append,
        Even.length_chain before, Nat.mul_add_mod]
      simp [size]
    · rw [if_neg more]
      refine ⟨_, _, rfl, even'.chain, iff_of_false ?_ (not_or.mpr ⟨Nat.not_le_of_lt postponed, ?_⟩)⟩
      · rw [(even'.room more).2]
        simp
      · rw [even'.length_text, held_of_room more, List.length_eq_zero_iff]
        exact some
  · have fits := Nat.le_of_not_lt postponed
    rw [OutBufs.submit, if_neg postponed, saveFull]
    refine ⟨bufs.out, (((bufs.getBuf conf).put data).mark true).outBuf, ?_, even.chain,
      iff_of_true rfl (.inl fits)⟩
    by_cases full : (((bufs.getBuf conf).put data).mark true).availOut = 0
    · rw [if_pos full, if_pos (show (((bufs.getBuf conf).put data).mark true).save.availOut = 0 from
        full)]
      exact congrArg (· ++ _) out_getBuf
    · rw [if_neg full, if_neg full]
      exact congrArg (· ++ _) out_getBuf

end OutBufs

end HttpBackEnd.Rds
