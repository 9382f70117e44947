import Mathlib.Algebra.BigOperators.Group.List.Lemmas
import Mathlib.Data.UInt
import BeeGadz.Foundation.Prog
import BeeGadz.Foundation.Vec

/-!
# The frames of the reader

What the library sends to the chip in the reader and what it accepts from it: a
length and data, each with a checksum.
-/

namespace BeeGadz
namespace Pn53x

open Foundation

def preamble : List UInt8 :=
  [0x00, 0x00, 0xff]

def dcs (tfi : UInt8) (data : List UInt8) : UInt8 :=
  data.foldl (fun btDCS byte => btDCS - byte) (0 - tfi)

def normalFrame (tfi : UInt8) (data : List UInt8) : List UInt8 :=
  preamble ++
    [UInt8.ofNat (data.length + 1), UInt8.ofNat (256 - (data.length + 1))] ++
    tfi :: data ++ [dcs tfi data, 0x00]

def extendedFrame (tfi : UInt8) (data : List UInt8) : List UInt8 :=
  let lenM := UInt8.ofNat ((data.length + 1) >>> 8)
  let lenL := UInt8.ofNat ((data.length + 1) &&& 0xff)
  preamble ++
    [0xff, 0xff, lenM, lenL,
      UInt8.ofNat (256 - ((lenM.toNat + lenL.toNat) &&& 0xff))] ++
    tfi :: data ++ [dcs tfi data, 0x00]

/-- `pn53x_build_frame`, which refuses more data than fits. -/
def buildFrame (data : List UInt8) : Option (List UInt8) :=
  if data.length ≤ 254 then some (normalFrame 0xD4 data)
  else if data.length ≤ 264 then some (extendedFrame 0xD4 data)
  else none

inductive Fault where
  /-- `uart_receive` failed -/
  | receive
  /-- "Frame preamble+start code mismatch" -/
  | preamble
  /-- "Application level error detected" -/
  | application
  /-- "Length checksum mismatch" -/
  | lengthChecksum
  /-- "Unable to receive data: buffer too small." -/
  | bufferTooSmall
  /-- "TFI Mismatch" -/
  | tfi
  /-- "Command Code verification failed" -/
  | commandCode
  /-- "Data checksum mismatch" -/
  | dataChecksum
  /-- "Frame postamble mismatch" -/
  | postamble
deriving DecidableEq

abbrev PortM : Type -> Type :=
  Prog (List UInt8) Fault

/-- `uart_receive` fails when the bytes do not arrive in time. -/
def uartReceive (szRx : Nat) : PortM (List UInt8) := fun port =>
  if szRx ≤ port.length then (.ok (port.take szRx), port.drop szRx)
  else (.error .receive, [])

def check (ok : Bool) (fault : Fault) : PortM Unit :=
  if ok then pure () else Prog.throw fault

/-- An int below zero becomes a large `size_t`. -/
def lengthOf (len : Nat) : Nat :=
  (len + sizeValues - 2) % sizeValues

/-- `pn532_uart_receive` up to the length of the data. -/
def receiveLength : PortM Nat := do
  let abtRxBuf ← uartReceive 5
  check (abtRxBuf.take 3 == preamble) .preamble
  let len := (abtRxBuf.getD 3 0).toNat
  let lcs := (abtRxBuf.getD 4 0).toNat
  if len = 0x01 ∧ lcs = 0xff then Prog.throw .application
  else if len = 0xff ∧ lcs = 0xff then do
    let abtRxBuf ← uartReceive 3
    let lenM := (abtRxBuf.getD 0 0).toNat
    let lenL := (abtRxBuf.getD 1 0).toNat
    let lcs := (abtRxBuf.getD 2 0).toNat
    check ((lenM + lenL + lcs) % 256 == 0) .lengthChecksum
    pure (lengthOf ((lenM <<< 8) + lenL))
  else do
    check (len + lcs == 256) .lengthChecksum
    pure (lengthOf len)

/-- `pn532_uart_receive`: the data of a reply to the last command, if they fit
into the buffer. -/
def receive (lastCommand : UInt8) (szDataLen : Nat) : PortM (List UInt8) := do
  let len ← receiveLength
  check (len ≤ szDataLen) .bufferTooSmall
  let abtRxBuf ← uartReceive 2
  check (abtRxBuf.getD 0 0 == 0xD5) .tfi
  check ((abtRxBuf.getD 1 0).toNat == lastCommand.toNat + 1) .commandCode
  let pbtData ← uartReceive len
  let abtRxBuf ← uartReceive 2
  check (dcs 0xD5 ((lastCommand + 1) :: pbtData) == abtRxBuf.getD 0 0)
    .dataChecksum
  check (abtRxBuf.getD 1 0 == 0x00) .postamble
  pure pbtData

/-!
## Reading the port
-/

theorem uartReceive_eq_ok {szRx : Nat} {port front rest : List UInt8} :
    uartReceive szRx port = (.ok front, rest) <->
      port = front ++ rest ∧ front.length = szRx := by
  unfold uartReceive
  split
  · rename_i hle
    constructor
    · intro h
      cases h
      exact ⟨(List.take_append_drop szRx port).symm, List.length_take_of_le hle⟩
    · rintro ⟨rfl, rfl⟩
      rw [List.take_left, List.drop_left]
  · rename_i hshort
    constructor
    · intro h
      cases h
    · rintro ⟨rfl, rfl⟩
      simp at hshort

theorem check_eq_ok {ok : Bool} {fault : Fault} {s t : List UInt8} {u : Unit} :
    check ok fault s = (.ok u, t) <-> ok = true ∧ s = t := by
  cases ok with
  | true =>
      constructor
      · intro h
        cases h
        exact ⟨rfl, rfl⟩
      · rintro ⟨-, rfl⟩
        rfl
  | false =>
      constructor
      · intro h
        cases h
      · rintro ⟨h, -⟩
        cases h

/-- The two forms of a header, and the length of the data in each. -/
inductive Header : List UInt8 -> Nat -> Prop where
  | normal {len lcs : UInt8} (hsum : len.toNat + lcs.toNat = 256)
      (hlen : 2 ≤ len.toNat) :
      Header (preamble ++ [len, lcs]) (len.toNat - 2)
  | extended {lenM lenL lcs : UInt8}
      (hsum : (lenM.toNat + lenL.toNat + lcs.toNat) % 256 = 0) :
      Header (preamble ++ [0xff, 0xff, lenM, lenL, lcs])
        (lengthOf (256 * lenM.toNat + lenL.toNat))

theorem lengthOf_eq {len : Nat} (hlow : 2 ≤ len) (hhigh : len < sizeValues) :
    lengthOf len = len - 2 := by
  unfold lengthOf sizeValues at *
  omega

theorem pure_eq_ok {α : Type} {a b : α} {s t : List UInt8} :
    (pure a : PortM α) s = (.ok b, t) <-> a = b ∧ s = t := by
  rw [Prog.pure_apply, Prod.mk.injEq, Except.ok.injEq]

theorem five_of_length {bytes : List UInt8} (h : bytes.length = 5) :
    exists a b c d e, bytes = [a, b, c, d, e] := by
  match bytes, h with
  | [a, b, c, d, e], _ => exact ⟨a, b, c, d, e, rfl⟩

theorem header_of_receiveLength {port rest : List UInt8} {len : Nat}
    (h : receiveLength port = (.ok len, rest)) :
    exists header, Header header len ∧ port = header ++ rest := by
  rcases Prog.bind_eq_ok.mp h with ⟨first, port₁, hfirst, h₁⟩
  rcases Prog.bind_eq_ok.mp h₁ with ⟨_, port₂, hcheck, h₂⟩
  rcases uartReceive_eq_ok.mp hfirst with ⟨rfl, hlength⟩
  rcases check_eq_ok.mp hcheck with ⟨hpreamble, rfl⟩
  rcases five_of_length hlength with ⟨a, b, c, l, s, rfl⟩
  have hstart : [a, b, c] = preamble := beq_iff_eq.mp hpreamble
  have hbegin : [a, b, c, l, s] = preamble ++ [l, s] := by
    rw [← hstart]
    rfl
  rw [hbegin]
  simp only [List.getD_cons_succ, List.getD_cons_zero] at h₂
  split at h₂
  · cases h₂
  · rename_i hfault
    split at h₂
    · rename_i hextended
      rcases Prog.bind_eq_ok.mp h₂ with ⟨second, port₃, hsecond, h₃⟩
      rcases Prog.bind_eq_ok.mp h₃ with ⟨_, port₄, hcheck₃, h₄⟩
      rcases uartReceive_eq_ok.mp hsecond with ⟨rfl, hlength₂⟩
      rcases check_eq_ok.mp hcheck₃ with ⟨hsum, rfl⟩
      rcases pure_eq_ok.mp h₄ with ⟨hlen, rfl⟩
      rcases List.length_eq_three.mp hlength₂ with ⟨m, n, t, rfl⟩
      have hl : l = 0xff := UInt8.toNat_inj.mp hextended.left
      have hs : s = 0xff := UInt8.toNat_inj.mp hextended.right
      simp only [List.getD_cons_succ, List.getD_cons_zero,
        Nat.shiftLeft_eq, Nat.mul_comm _ (2 ^ 8)] at hsum hlen
      refine ⟨preamble ++ [0xff, 0xff, m, n, t], ?_, ?_⟩
      · rw [← hlen]
        exact Header.extended (beq_iff_eq.mp hsum)
      · rw [hl, hs]
        rfl
    · rcases Prog.bind_eq_ok.mp h₂ with ⟨_, port₃, hcheck₂, h₃⟩
      rcases check_eq_ok.mp hcheck₂ with ⟨hsum, rfl⟩
      rcases pure_eq_ok.mp h₃ with ⟨rfl, rfl⟩
      have hbytes : l.toNat + s.toNat = 256 := beq_iff_eq.mp hsum
      have hs := s.toNat_lt
      have hl := l.toNat_lt
      have hlen : 2 ≤ l.toNat := by
        omega
      refine ⟨preamble ++ [l, s], ?_, rfl⟩
      rw [lengthOf_eq hlen (by unfold sizeValues; omega)]
      exact Header.normal hbytes hlen

theorem receiveLength_of_header {header : List UInt8} {len : Nat}
    (h : Header header len) (rest : List UInt8) :
    receiveLength (header ++ rest) = (.ok len, rest) := by
  cases h with
  | @normal l s hsum hlen =>
      have hl := l.toNat_lt
      have hs := s.toNat_lt
      have hfirst : uartReceive 5 (preamble ++ [l, s] ++ rest) =
          (.ok (preamble ++ [l, s]), rest) :=
        uartReceive_eq_ok.mpr ⟨rfl, rfl⟩
      have hstart : check ((preamble ++ [l, s]).take 3 == preamble) .preamble
          rest = (.ok (), rest) :=
        check_eq_ok.mpr ⟨rfl, rfl⟩
      have hcheck : check (l.toNat + s.toNat == 256) .lengthChecksum rest =
          (.ok (), rest) :=
        check_eq_ok.mpr ⟨beq_iff_eq.mpr hsum, rfl⟩
      rw [receiveLength, Prog.bind_of_ok _ hfirst, Prog.bind_of_ok _ hstart]
      simp only [preamble, List.cons_append, List.nil_append,
        List.getD_cons_succ, List.getD_cons_zero]
      rw [if_neg (by omega), if_neg (by omega), Prog.bind_of_ok _ hcheck,
        Prog.pure_apply, lengthOf_eq hlen (by unfold sizeValues; omega)]
  | @extended m n t hsum =>
      have hfirst : uartReceive 5
          (preamble ++ [0xff, 0xff, m, n, t] ++ rest) =
            (.ok (preamble ++ [0xff, 0xff]), [m, n, t] ++ rest) :=
        uartReceive_eq_ok.mpr ⟨rfl, rfl⟩
      have hsecond : uartReceive 3 ([m, n, t] ++ rest) =
          (.ok [m, n, t], rest) :=
        uartReceive_eq_ok.mpr ⟨rfl, rfl⟩
      have hstart : check ((preamble ++ [0xff, 0xff]).take 3 == preamble)
          .preamble ([m, n, t] ++ rest) = (.ok (), [m, n, t] ++ rest) :=
        check_eq_ok.mpr ⟨rfl, rfl⟩
      have hcheck : check ((m.toNat + n.toNat + t.toNat) % 256 == 0)
          .lengthChecksum rest = (.ok (), rest) :=
        check_eq_ok.mpr ⟨beq_iff_eq.mpr hsum, rfl⟩
      rw [receiveLength, Prog.bind_of_ok _ hfirst, Prog.bind_of_ok _ hstart]
      simp only [preamble, List.cons_append, List.nil_append,
        List.getD_cons_succ, List.getD_cons_zero]
      rw [if_neg (by decide), if_pos (by decide)]
      rw [List.cons_append, List.cons_append, List.cons_append,
        List.nil_append] at hsecond
      rw [Prog.bind_of_ok _ hsecond]
      simp only [List.getD_cons_succ, List.getD_cons_zero]
      rw [Prog.bind_of_ok _ hcheck, Prog.pure_apply, Nat.shiftLeft_eq,
        Nat.mul_comm]

/-!
## Replies
-/

theorem eq_ofNat {byte : UInt8} {n : Nat} (h : byte.toNat = n % 256) :
    byte = UInt8.ofNat n := by
  apply UInt8.toNat_inj.mp
  rw [UInt8.toNat_ofNat']
  exact h

theorem normal_header {n : Nat} (hle : n ≤ 253) :
    Header (preamble ++ [UInt8.ofNat (n + 2), UInt8.ofNat (256 - (n + 2))])
      n := by
  have hl : (UInt8.ofNat (n + 2)).toNat = n + 2 := by
    rw [UInt8.toNat_ofNat']
    exact Nat.mod_eq_of_lt (by omega)
  have hs : (UInt8.ofNat (256 - (n + 2))).toNat = 256 - (n + 2) := by
    rw [UInt8.toNat_ofNat']
    exact Nat.mod_eq_of_lt (by omega)
  have hheader := Header.normal
    (by rw [hl, hs]; omega :
      (UInt8.ofNat (n + 2)).toNat + (UInt8.ofNat (256 - (n + 2))).toNat =
        256)
    (by rw [hl]; omega)
  rwa [hl, Nat.add_sub_cancel] at hheader

theorem extended_header {n : Nat} (hle : n ≤ 65533) :
    Header (preamble ++ [0xff, 0xff, UInt8.ofNat ((n + 2) / 256),
      UInt8.ofNat ((n + 2) % 256),
      UInt8.ofNat (256 - ((n + 2) / 256 + (n + 2) % 256) % 256)]) n := by
  have hm : (UInt8.ofNat ((n + 2) / 256)).toNat = (n + 2) / 256 := by
    rw [UInt8.toNat_ofNat']
    exact Nat.mod_eq_of_lt (by omega)
  have hl : (UInt8.ofNat ((n + 2) % 256)).toNat = (n + 2) % 256 := by
    rw [UInt8.toNat_ofNat']
    exact Nat.mod_eq_of_lt (by omega)
  have hsum : ((n + 2) / 256 + (n + 2) % 256 +
      (256 - ((n + 2) / 256 + (n + 2) % 256) % 256) % 256) % 256 = 0 := by
    omega
  have hheader := Header.extended
    (by rw [hm, hl, UInt8.toNat_ofNat']; exact hsum :
      ((UInt8.ofNat ((n + 2) / 256)).toNat +
        (UInt8.ofNat ((n + 2) % 256)).toNat +
        (UInt8.ofNat
          (256 - ((n + 2) / 256 + (n + 2) % 256) % 256)).toNat) % 256 = 0)
  have hlength : lengthOf (256 * ((n + 2) / 256) + (n + 2) % 256) = n := by
    rw [Nat.div_add_mod, lengthOf_eq (by omega)
      (by unfold sizeValues; omega), Nat.add_sub_cancel]
  rwa [hm, hl, hlength] at hheader

/-- No other header is for `n` bytes of data. -/
theorem bytes_of_header {header : List UInt8} {n : Nat}
    (hn : n < sizeValues - 2) (h : Header header n) :
    (n ≤ 253 ∧ header =
      preamble ++ [UInt8.ofNat (n + 2), UInt8.ofNat (256 - (n + 2))]) ∨
    (n ≤ 65533 ∧ header =
      preamble ++ [0xff, 0xff, UInt8.ofNat ((n + 2) / 256),
        UInt8.ofNat ((n + 2) % 256),
        UInt8.ofNat (256 - ((n + 2) / 256 + (n + 2) % 256) % 256)]) := by
  cases h with
  | @normal l s hsum hlen =>
      have hl := l.toNat_lt
      refine Or.inl ⟨by omega, ?_⟩
      rw [← eq_ofNat (by omega : l.toNat = (l.toNat - 2 + 2) % 256),
        ← eq_ofNat (by omega : s.toNat = (256 - (l.toNat - 2 + 2)) % 256)]
  | @extended m l t hsum =>
      have hm := m.toNat_lt
      have hl := l.toNat_lt
      have ht := t.toNat_lt
      have hlow : 2 ≤ 256 * m.toNat + l.toNat := by
        by_contra hsmall
        have hwrap : lengthOf (256 * m.toNat + l.toNat) =
            256 * m.toNat + l.toNat + sizeValues - 2 := by
          rw [lengthOf, Nat.mod_eq_of_lt]
          unfold sizeValues
          omega
        omega
      have hhigh : 256 * m.toNat + l.toNat < sizeValues := by
        unfold sizeValues
        omega
      rw [lengthOf_eq hlow hhigh]
      have hsame : 256 * m.toNat + l.toNat - 2 + 2 =
          256 * m.toNat + l.toNat := by
        omega
      have hupper : (256 * m.toNat + l.toNat) / 256 = m.toNat := by
        omega
      have hlower : (256 * m.toNat + l.toNat) % 256 = l.toNat := by
        omega
      refine Or.inr ⟨by omega, ?_⟩
      rw [hsame, hupper, hlower, UInt8.ofNat_toNat, UInt8.ofNat_toNat,
        ← eq_ofNat (by omega : t.toNat =
          (256 - (m.toNat + l.toNat) % 256) % 256)]

/-- What the chip may answer to the last command: its data in a frame, after
the code of the command plus one. -/
inductive Reply (lastCommand : UInt8) : List UInt8 -> List UInt8 -> Prop where
  | normal {payload : List UInt8} (hlast : lastCommand ≠ 0xff)
      (hfits : payload.length ≤ 253) :
      Reply lastCommand payload
        (normalFrame 0xD5 ((lastCommand + 1) :: payload))
  | extended {payload : List UInt8} (hlast : lastCommand ≠ 0xff)
      (hfits : payload.length ≤ 65533) :
      Reply lastCommand payload
        (extendedFrame 0xD5 ((lastCommand + 1) :: payload))

def body (lastCommand : UInt8) (payload : List UInt8) : List UInt8 :=
  0xD5 :: (lastCommand + 1) :: payload ++
    [dcs 0xD5 ((lastCommand + 1) :: payload), 0x00]

theorem command_iff {lastCommand code : UInt8} :
    code.toNat = lastCommand.toNat + 1 <->
      code = lastCommand + 1 ∧ lastCommand ≠ 0xff := by
  have hcode := code.toNat_lt
  have hlast := lastCommand.toNat_lt
  have hmax : lastCommand = 0xff <-> lastCommand.toNat = 255 :=
    UInt8.toNat_inj.symm
  rw [← UInt8.toNat_inj, UInt8.toNat_add, UInt8.toNat_one, Ne, hmax]
  omega

theorem body_of_receive {lastCommand : UInt8} {szDataLen : Nat}
    {port payload rest : List UInt8}
    (h : receive lastCommand szDataLen port = (.ok payload, rest)) :
    payload.length ≤ szDataLen ∧ lastCommand ≠ 0xff ∧
      exists header, Header header payload.length ∧
        port = header ++ body lastCommand payload ++ rest := by
  rcases Prog.bind_eq_ok.mp h with ⟨len, port₁, hheader, h₁⟩
  rcases Prog.bind_eq_ok.mp h₁ with ⟨_, port₂, hroom, h₂⟩
  rcases Prog.bind_eq_ok.mp h₂ with ⟨codes, port₃, hcodes, h₃⟩
  rcases Prog.bind_eq_ok.mp h₃ with ⟨_, port₄, htfi, h₄⟩
  rcases Prog.bind_eq_ok.mp h₄ with ⟨_, port₅, hcommand, h₅⟩
  rcases Prog.bind_eq_ok.mp h₅ with ⟨pbtData, port₆, hdata, h₆⟩
  rcases Prog.bind_eq_ok.mp h₆ with ⟨trailer, port₇, htrailer, h₇⟩
  rcases Prog.bind_eq_ok.mp h₇ with ⟨_, port₈, hdcs, h₈⟩
  rcases Prog.bind_eq_ok.mp h₈ with ⟨_, port₉, hpostamble, h₉⟩
  rcases header_of_receiveLength hheader with ⟨header, hform, rfl⟩
  rcases check_eq_ok.mp hroom with ⟨hfits, rfl⟩
  rcases uartReceive_eq_ok.mp hcodes with ⟨rfl, htwo⟩
  rcases check_eq_ok.mp htfi with ⟨hfirst, rfl⟩
  rcases check_eq_ok.mp hcommand with ⟨hsecond, rfl⟩
  rcases uartReceive_eq_ok.mp hdata with ⟨rfl, rfl⟩
  rcases uartReceive_eq_ok.mp htrailer with ⟨rfl, hend⟩
  rcases check_eq_ok.mp hdcs with ⟨hthird, rfl⟩
  rcases check_eq_ok.mp hpostamble with ⟨hfourth, rfl⟩
  rcases pure_eq_ok.mp h₉ with ⟨rfl, rfl⟩
  rcases List.length_eq_two.mp htwo with ⟨tfi, code, rfl⟩
  rcases List.length_eq_two.mp hend with ⟨sum, last, rfl⟩
  have htfi : tfi = 0xD5 := beq_iff_eq.mp hfirst
  have hcommand := command_iff.mp (beq_iff_eq.mp hsecond)
  have hcode : code = lastCommand + 1 := hcommand.left
  have hsum : dcs 0xD5 ((lastCommand + 1) :: pbtData) = sum :=
    beq_iff_eq.mp hthird
  have hlast : last = 0x00 := beq_iff_eq.mp hfourth
  have hfound : [tfi, code] ++ (pbtData ++ [sum, last]) =
      body lastCommand pbtData := by
    rw [htfi, hcode, ← hsum, hlast]
    rfl
  refine ⟨of_decide_eq_true hfits, hcommand.right, header, hform, ?_⟩
  rw [← hfound]
  simp only [List.append_assoc]

theorem receive_of_body {lastCommand : UInt8} {szDataLen : Nat}
    {payload : List UInt8} (hroom : payload.length ≤ szDataLen)
    (hlast : lastCommand ≠ 0xff) {header : List UInt8}
    (hform : Header header payload.length) (rest : List UInt8) :
    receive lastCommand szDataLen
      (header ++ body lastCommand payload ++ rest) = (.ok payload, rest) := by
  have hheader := receiveLength_of_header hform
    (body lastCommand payload ++ rest)
  have hcheck : check (payload.length ≤ szDataLen) .bufferTooSmall
      (body lastCommand payload ++ rest) =
        (.ok (), body lastCommand payload ++ rest) :=
    check_eq_ok.mpr ⟨decide_eq_true hroom, rfl⟩
  let sum := dcs 0xD5 ((lastCommand + 1) :: payload)
  have hcodes : uartReceive 2 (body lastCommand payload ++ rest) =
      (.ok [0xD5, lastCommand + 1], payload ++ ([sum, 0x00] ++ rest)) :=
    uartReceive_eq_ok.mpr ⟨by simp [body, sum], rfl⟩
  have htfi : forall port, check (((0xD5 : UInt8) == 0xD5)) .tfi port =
      (.ok (), port) := by
    intro port
    exact check_eq_ok.mpr ⟨rfl, rfl⟩
  have hcommand : forall port,
      check ((lastCommand + 1).toNat == lastCommand.toNat + 1) .commandCode
        port = (.ok (), port) := by
    intro port
    exact check_eq_ok.mpr
      ⟨beq_iff_eq.mpr (command_iff.mpr ⟨rfl, hlast⟩), rfl⟩
  have hdata : uartReceive payload.length
      (payload ++ ([sum, 0x00] ++ rest)) =
        (.ok payload, [sum, 0x00] ++ rest) :=
    uartReceive_eq_ok.mpr ⟨rfl, rfl⟩
  have htrailer : uartReceive 2 ([sum, 0x00] ++ rest) =
      (.ok [sum, 0x00], rest) :=
    uartReceive_eq_ok.mpr ⟨rfl, rfl⟩
  have hdcs : check (dcs 0xD5 ((lastCommand + 1) :: payload) == sum)
      .dataChecksum rest = (.ok (), rest) :=
    check_eq_ok.mpr ⟨beq_iff_eq.mpr rfl, rfl⟩
  have hpostamble : check (((0x00 : UInt8) == 0x00)) .postamble rest =
      (.ok (), rest) :=
    check_eq_ok.mpr ⟨rfl, rfl⟩
  rw [List.append_assoc, receive, Prog.bind_of_ok _ hheader,
    Prog.bind_of_ok _ hcheck, Prog.bind_of_ok _ hcodes]
  simp only [List.getD_cons_succ, List.getD_cons_zero]
  rw [Prog.bind_of_ok _ (htfi _), Prog.bind_of_ok _ (hcommand _),
    Prog.bind_of_ok _ hdata, Prog.bind_of_ok _ htrailer]
  simp only [List.getD_cons_succ, List.getD_cons_zero]
  rw [Prog.bind_of_ok _ hdcs, Prog.bind_of_ok _ hpostamble,
    Prog.pure_apply]

theorem normalFrame_eq (lastCommand : UInt8) (payload : List UInt8) :
    normalFrame 0xD5 ((lastCommand + 1) :: payload) =
      preamble ++ [UInt8.ofNat (payload.length + 2),
        UInt8.ofNat (256 - (payload.length + 2))] ++
          body lastCommand payload := by
  rw [normalFrame, List.length_cons, List.append_assoc]
  rfl

theorem extendedFrame_eq {lastCommand : UInt8} {payload : List UInt8}
    (hfits : payload.length ≤ 65533) :
    extendedFrame 0xD5 ((lastCommand + 1) :: payload) =
      preamble ++ [0xff, 0xff, UInt8.ofNat ((payload.length + 2) / 256),
        UInt8.ofNat ((payload.length + 2) % 256),
        UInt8.ofNat (256 - ((payload.length + 2) / 256 +
          (payload.length + 2) % 256) % 256)] ++ body lastCommand payload := by
  have hupper : (payload.length + 2) >>> 8 = (payload.length + 2) / 256 :=
    Nat.shiftRight_eq_div_pow _ 8
  have hlow (n : Nat) : n &&& 0xff = n % 256 :=
    Nat.and_two_pow_sub_one_eq_mod n 8
  have hm : (UInt8.ofNat ((payload.length + 2) / 256)).toNat =
      (payload.length + 2) / 256 := by
    rw [UInt8.toNat_ofNat']
    exact Nat.mod_eq_of_lt (by omega)
  have hl : (UInt8.ofNat ((payload.length + 2) % 256)).toNat =
      (payload.length + 2) % 256 := by
    rw [UInt8.toNat_ofNat']
    exact Nat.mod_eq_of_lt (by omega)
  rw [extendedFrame, List.length_cons, List.append_assoc]
  simp only [hupper, hlow, hm, hl]
  rfl

/-- The reader accepts exactly the replies to its last command that fit into
its buffer, and leaves what follows one on the port. -/
theorem receive_iff {lastCommand : UInt8} {szDataLen : Nat}
    (hbuffer : szDataLen < sizeValues - 2) (port payload rest : List UInt8) :
    receive lastCommand szDataLen port = (.ok payload, rest) <->
      payload.length ≤ szDataLen ∧
        exists bytes, Reply lastCommand payload bytes ∧
          port = bytes ++ rest := by
  constructor
  · intro h
    rcases body_of_receive h with ⟨hfits, hlast, header, hheader, rfl⟩
    refine ⟨hfits, header ++ body lastCommand payload, ?_, rfl⟩
    rcases bytes_of_header (by omega) hheader with ⟨hle, rfl⟩ | ⟨hle, rfl⟩
    · rw [← normalFrame_eq]
      exact Reply.normal hlast hle
    · rw [← extendedFrame_eq hle]
      exact Reply.extended hlast hle
  · rintro ⟨hfits, bytes, hreply, rfl⟩
    cases hreply with
    | normal hlast hle =>
        rw [normalFrame_eq]
        exact receive_of_body hfits hlast (normal_header hle) rest
    | extended hlast hle =>
        rw [extendedFrame_eq hle]
        exact receive_of_body hfits hlast (extended_header hle) rest

/-- Of an answer to `InDataExchange`, with a byte of the next behind it. -/
theorem receive_iff_data :
    receive 0x40 264
      [0x00, 0x00, 0xff, 0x05, 0xfb, 0xd5, 0x41, 0x00, 0x01, 0x02, 0xe7, 0x00,
        0x00] = (.ok [0x00, 0x01, 0x02], [0x00]) := by
  have hreply : Reply 0x40 [0x00, 0x01, 0x02]
      [0x00, 0x00, 0xff, 0x05, 0xfb, 0xd5, 0x41, 0x00, 0x01, 0x02, 0xe7,
        0x00] :=
    Reply.normal (by decide) (by decide)
  exact (receive_iff (by decide) _ _ _).mpr ⟨by decide, _, hreply, rfl⟩

def identifier (port : List UInt8) : Option UInt8 :=
  if port[3]? = some 0xff ∧ port[4]? = some 0xff then port[8]? else port[5]?

theorem identifier_normal {l s : UInt8} (h : ¬ (l = 0xff ∧ s = 0xff))
    (tfi : UInt8) (rest : List UInt8) :
    identifier (preamble ++ [l, s] ++ tfi :: rest) = some tfi := by
  apply if_neg
  rintro ⟨hl, hs⟩
  exact h ⟨Option.some.inj hl, Option.some.inj hs⟩

theorem identifier_extended (m n t tfi : UInt8) (rest : List UInt8) :
    identifier (preamble ++ [0xff, 0xff, m, n, t] ++ tfi :: rest) = some tfi :=
  if_pos ⟨rfl, rfl⟩

theorem Header.identifier {header : List UInt8} {n : Nat}
    (h : Header header n) (tfi : UInt8) (rest : List UInt8) :
    Pn53x.identifier (header ++ tfi :: rest) = some tfi := by
  cases h with
  | normal hsum hlen =>
      apply identifier_normal
      rintro ⟨rfl, rfl⟩
      exact absurd hsum (by decide)
  | extended hsum =>
      exact identifier_extended _ _ _ tfi rest

theorem buildFrame_identifier {data frame : List UInt8}
    (h : buildFrame data = some frame) (rest : List UInt8) :
    identifier (frame ++ rest) = some 0xD4 := by
  unfold buildFrame at h
  split at h
  · rename_i hshort
    cases h
    rw [normalFrame, List.append_assoc, List.append_assoc, List.cons_append]
    apply identifier_normal
    rintro ⟨hlen, hlcs⟩
    have hl := congrArg UInt8.toNat hlen
    have hs := congrArg UInt8.toNat hlcs
    rw [UInt8.toNat_ofNat'] at hl hs
    have hmax : (0xff : UInt8).toNat = 255 := rfl
    omega
  · split at h
    · cases h
      rw [extendedFrame, List.append_assoc, List.append_assoc, List.cons_append]
      exact identifier_extended _ _ _ 0xD4 _
    · cases h

/-- What the library sends is not taken for an answer, should it come back. -/
theorem receive_of_sent {data frame : List UInt8}
    (hframe : buildFrame data = some frame) (lastCommand : UInt8)
    (szDataLen : Nat) (rest : List UInt8) :
    exists fault, (receive lastCommand szDataLen (frame ++ rest)).1 =
      .error fault := by
  rcases hresult : receive lastCommand szDataLen (frame ++ rest) with
    ⟨result, rest'⟩
  cases result with
  | error fault =>
      exact ⟨fault, rfl⟩
  | ok payload =>
      exfalso
      rcases body_of_receive hresult with ⟨-, -, header, hheader, hport⟩
      have hsent := buildFrame_identifier hframe rest
      rw [hport, List.append_assoc] at hsent
      have hreceived := hheader.identifier 0xD5
        ((lastCommand + 1) :: payload ++
          [dcs 0xD5 ((lastCommand + 1) :: payload), 0x00] ++ rest')
      have hsame : some (0xD5 : UInt8) = some 0xD4 :=
        hreceived.symm.trans hsent
      exact absurd hsame (by decide)

/-!
## A corrupted byte
-/

theorem dcs_sum (tfi : UInt8) (data : List UInt8) :
    tfi + (data.sum + dcs tfi data) = 0 := by
  have hfold : forall start : UInt8,
      data.foldl (fun btDCS byte => btDCS - byte) start =
        start - data.sum := by
    induction data with
    | nil =>
        intro start
        exact (sub_zero start).symm
    | cons byte data ih =>
        intro start
        rw [List.foldl_cons, ih, List.sum_cons, sub_sub]
  rw [dcs, hfold, add_sub_cancel, add_sub_cancel]

theorem body_sum (lastCommand : UInt8) (payload : List UInt8) :
    (body lastCommand payload).sum = 0 := by
  have hsum := dcs_sum 0xD5 ((lastCommand + 1) :: payload)
  rw [body, List.sum_append, List.sum_cons, List.sum_pair, add_zero, add_assoc]
  exact hsum

def AgreeExcept (i : Nat) (port port' : List UInt8) : Prop :=
  forall j, j ≠ i -> port[j]? = port'[j]?

theorem AgreeExcept.symm {i : Nat} {port port' : List UInt8}
    (h : AgreeExcept i port port') : AgreeExcept i port' port :=
  fun j hj => (h j hj).symm

theorem agreeExcept_set (i : Nat) (port : List UInt8) (byte : UInt8) :
    AgreeExcept i port (port.set i byte) := by
  intro j hj
  exact (List.getElem?_set_ne hj.symm).symm

/-- A short and an extended header differ in more than one byte, unless the
identifier of the frame reads as part of a length that no buffer has room
for. -/
theorem not_mixed {i : Nat} {l s m n t : UInt8} {payload payload' : List UInt8}
    (hsum : l.toNat + s.toNat = 256)
    (hroom : lengthOf (256 * m.toNat + n.toNat) ≤ 264)
    (hnear : AgreeExcept i
      (preamble ++ [l, s] ++ 0xD5 :: payload)
      (preamble ++ [0xff, 0xff, m, n, t] ++ payload')) : False := by
  have hm : i ≠ 5 -> 0xD5 = m := by
    intro hi
    exact Option.some.inj (hnear 5 hi.symm)
  have hl : i ≠ 3 -> l = 0xff := by
    intro hi
    exact Option.some.inj (hnear 3 hi.symm)
  have hs : i ≠ 4 -> s = 0xff := by
    intro hi
    exact Option.some.inj (hnear 4 hi.symm)
  by_cases hi : i = 5
  · rw [hl (by omega), hs (by omega)] at hsum
    exact absurd hsum (by decide)
  · have hn := n.toNat_lt
    rw [← hm hi] at hroom
    have hlarge : (0xD5 : UInt8).toNat = 213 := rfl
    rw [hlarge, lengthOf_eq (by omega) (by unfold sizeValues; omega)] at hroom
    omega

/-- Where two headers differ in one byte only, they are for the same length. -/
theorem header_near {i n n' : Nat} {header header' rest rest' : List UInt8}
    (hheader : Header header n) (hheader' : Header header' n')
    (hroom : n ≤ 264) (hroom' : n' ≤ 264)
    (hnear : AgreeExcept i (header ++ 0xD5 :: rest)
      (header' ++ 0xD5 :: rest')) :
    n = n' ∧ header.length = header'.length ∧ header.sum = header'.sum := by
  cases hheader with
  | @normal l s hsum hlen =>
      cases hheader' with
      | @normal l' s' hsum' hlen' =>
          have hl : i ≠ 3 -> l = l' := by
            intro hi
            exact Option.some.inj (hnear 3 hi.symm)
          have hs : i ≠ 4 -> s = s' := by
            intro hi
            exact Option.some.inj (hnear 4 hi.symm)
          have hsame : l.toNat = l'.toNat := by
            by_cases hi : i = 3
            · rw [hs (by omega)] at hsum
              omega
            · rw [hl hi]
          have hsame' : s.toNat = s'.toNat := by
            omega
          rw [UInt8.toNat_inj.mp hsame, UInt8.toNat_inj.mp hsame']
          exact ⟨rfl, rfl, rfl⟩
      | extended hsum' =>
          exact (not_mixed hsum hroom' hnear).elim
  | @extended m l t hsum =>
      cases hheader' with
      | normal hsum' hlen' =>
          exact (not_mixed hsum' hroom hnear.symm).elim
      | @extended m' l' t' hsum' =>
          have hm : i ≠ 5 -> m.toNat = m'.toNat := by
            intro hi
            exact congrArg UInt8.toNat (Option.some.inj (hnear 5 hi.symm))
          have hl : i ≠ 6 -> l.toNat = l'.toNat := by
            intro hi
            exact congrArg UInt8.toNat (Option.some.inj (hnear 6 hi.symm))
          have ht : i ≠ 7 -> t.toNat = t'.toNat := by
            intro hi
            exact congrArg UInt8.toNat (Option.some.inj (hnear 7 hi.symm))
          have hbounds := And.intro m.toNat_lt (And.intro l.toNat_lt t.toNat_lt)
          have hbounds' :=
            And.intro m'.toNat_lt (And.intro l'.toNat_lt t'.toNat_lt)
          have hsame : m.toNat = m'.toNat ∧ l.toNat = l'.toNat ∧
              t.toNat = t'.toNat := by
            omega
          rw [UInt8.toNat_inj.mp hsame.left,
            UInt8.toNat_inj.mp hsame.right.left,
            UInt8.toNat_inj.mp hsame.right.right]
          exact ⟨rfl, rfl, rfl⟩

/-- A reply with a byte changed on the way is refused. -/
theorem receive_of_corrupted {lastCommand : UInt8} {szDataLen i : Nat}
    {port payload rest : List UInt8} {byte : UInt8}
    (hbuffer : szDataLen ≤ 264)
    (h : receive lastCommand szDataLen port = (.ok payload, rest))
    (hi : i + rest.length < port.length) (hbyte : port[i]? ≠ some byte) :
    exists fault, (receive lastCommand szDataLen (port.set i byte)).1 =
      .error fault := by
  rcases hresult : receive lastCommand szDataLen (port.set i byte) with
    ⟨result, rest'⟩
  cases result with
  | error fault =>
      exact ⟨fault, rfl⟩
  | ok payload' =>
      exfalso
      rcases body_of_receive h with ⟨hroom, -, header, hheader, hport⟩
      rcases body_of_receive hresult with
        ⟨hroom', -, header', hheader', hport'⟩
      have hnear := agreeExcept_set i port byte
      rw [hport', hport, List.append_assoc, List.append_assoc] at hnear
      rcases header_near hheader hheader' (hroom.trans hbuffer)
        (hroom'.trans hbuffer) hnear with ⟨hlength, hsize, hsum⟩
      let bytes := header ++ body lastCommand payload
      let bytes' := header' ++ body lastCommand payload'
      have hbytes : bytes.length = bytes'.length := by
        simp [bytes, bytes', body, hlength, hsize]
      have hinside : i < bytes.length := by
        rw [hport, List.length_append] at hi
        exact Nat.lt_of_add_lt_add_right hi
      have hset : bytes.set i byte = bytes' := by
        rw [hport, List.set_append_left _ _ hinside] at hport'
        exact (List.append_inj hport' (by rw [List.length_set, hbytes])).left
      have htotal : bytes.sum = bytes'.sum := by
        rw [List.sum_append, List.sum_append, body_sum, body_sum, hsum]
      rw [← hset, List.sum_set', dif_pos hinside, left_eq_add,
        neg_add_eq_zero] at htotal
      apply hbyte
      rw [hport, List.getElem?_append_left hinside,
        List.getElem?_eq_getElem hinside, htotal]

/-- Of an answer to `InDataExchange`, with the last byte of its data
changed. -/
theorem receive_of_corrupted_data :
    exists fault, (receive 0x40 264
      (List.set [0x00, 0x00, 0xff, 0x05, 0xfb, 0xd5, 0x41, 0x00, 0x01, 0x02,
        0xe7, 0x00] 9 0x06)).1 = .error fault := by
  have hreply : receive 0x40 264
      [0x00, 0x00, 0xff, 0x05, 0xfb, 0xd5, 0x41, 0x00, 0x01, 0x02, 0xe7, 0x00] =
        (.ok [0x00, 0x01, 0x02], []) := by
    decide +kernel
  exact receive_of_corrupted (le_refl 264) hreply (by decide) (by decide)

end Pn53x
end BeeGadz
