import GoproNative.Http.Definitions
import GoproNative.Support.Replace

/-!
# Joining through nmcli

This module embeds `NmcliWifiController.join` of `wifi_controller.dart`.  What the process
writes and how it exits is the environment's choice, so the output may hold the passphrase
anywhere, also where `stdout` and `stderr` meet.
-/

namespace GoproNative

structure ApCredentials where
  ssid : Text
  password : Text
  deriving DecidableEq

structure WifiJoinException where
  message : Text
  detail : Text := []
  deriving DecidableEq

structure ProcessResult where
  exitCode : Int
  stdout : Text
  stderr : Text
  deriving DecidableEq

structure NmcliWifiController where
  executable : Text := utf16 "nmcli"
  /-- In microseconds. -/
  timeout : Option Int := none
  deriving DecidableEq

/-- What stands for the passphrase. -/
def placeholder : Text := utf16 "<passphrase>"

namespace NmcliWifiController

/-- The argv for joining. -/
def joinArgs (c : NmcliWifiController) (credentials : ApCredentials) : List Text :=
  (match c.timeout with
    | some timeout => [utf16 "--wait", utf16 (toString (timeout.tdiv 1000000))]
    | none => []) ++
  [utf16 "device", utf16 "wifi", utf16 "connect", credentials.ssid, utf16 "password",
    credentials.password]

def redact (r : ProcessResult) (secret : Text) : Text :=
  let text := trim (r.stdout ++ r.stderr)
  if secret = [] then text else secret.replaceAll placeholder text

/-- `run` is `Process.run`, which returns a result or throws a `ProcessException` with a
message. -/
def join (c : NmcliWifiController)
    (run : Text → List Text → Except (Text) ProcessResult)
    (credentials : ApCredentials) : Except WifiJoinException Unit :=
  match run c.executable (c.joinArgs credentials) with
  | .error message =>
      .error { message := utf16 "cannot run " ++ c.executable, detail := message }
  | .ok r =>
      if r.exitCode ≠ 0 then
        .error {
          message := utf16 "nmcli could not join \"" ++ credentials.ssid ++ utf16 "\""
          detail := redact r credentials.password }
      else .ok ()

end NmcliWifiController

/-! ## What a failed join tells -/

/-- A text that begins and ends with letters is not trimmed. -/
theorem trim_between {c d : UInt16} (hc : isWhiteSpace c = false)
    (hd : isWhiteSpace d = false) (text : Text) :
    trim (c :: (text ++ [d])) = c :: (text ++ [d]) := by
  rw [trim, List.dropWhile_cons, hc]
  simp [hd]

/-- One of two letters is not the one given. -/
def otherThan (unit : Option UInt16) : UInt16 := if unit = some 0x78 then 0x79 else 0x78

theorem otherThan_ne (unit : Option UInt16) : unit ≠ some (otherThan unit) := by
  rw [otherThan]
  split
  · next heq =>
    rw [heq]
    decide
  · next hne => exact hne

theorem otherThan_letter (unit : Option UInt16) : isWhiteSpace (otherThan unit) = false := by
  rw [otherThan]
  split
  · decide
  · decide

namespace NmcliWifiController

/-- Whatever nmcli writes, the detail does not hold the passphrase. -/
def Scrubs (password : Text) : Prop :=
  ∀ (c : NmcliWifiController) ssid r e,
    c.join (fun _ _ => .ok r) ⟨ssid, password⟩ = .error e → ¬password <:+: e.detail

/-- For which passphrases the output of nmcli is scrubbed: those that are no part of the
placeholder, do not begin with an end of it, and of which no end that is a beginning of the
placeholder, or goes on beyond one, stands behind letters with which the passphrase has its
first occurrence. -/
theorem scrubs_iff {password : Text} (hne : password ≠ []) :
    Scrubs password ↔ password.Yields placeholder := by
  constructor
  · intro h
    by_contra hnot
    obtain ⟨text, hback⟩ := List.exists_of_not_yields hne hnot
      (otherThan_ne password.head?) (otherThan_ne password.getLast?)
    let output := otherThan password.head? :: (text ++ [otherThan password.getLast?])
    have htrim : trim (output ++ []) = output := by
      rw [List.append_nil]
      exact trim_between (otherThan_letter _) (otherThan_letter _) text
    apply h {} [] ⟨1, output, []⟩ _ rfl
    change password <:+: redact ⟨1, output, []⟩ password
    rw [redact, if_neg hne, htrim]
    exact hback
  · intro hyields c ssid r e hjoin
    rw [join] at hjoin
    simp only at hjoin
    split at hjoin
    · obtain rfl := Except.error.inj hjoin
      change ¬password <:+: redact r password
      rw [redact, if_neg hne]
      exact hyields.not_infix hne _
    · simp at hjoin

/-- The passphrase of a camera. -/
theorem scrubs_iff_camera : Scrubs (utf16 "Xp2-hF9-rt4") :=
  (scrubs_iff (by decide)).mpr (by decide)

/-- The placeholder itself holds the passphrase `passphrase`. -/
theorem passphrase_not_scrubbed : ¬∀ password : Text, password ≠ [] → Scrubs password := by
  intro h
  have hclean := h (utf16 "passphrase") (by decide) {} (utf16 "GP24642729")
    ⟨4, [], utf16 "Error: no key: passphrase"⟩ _ rfl
  exact hclean (by decide)

end NmcliWifiController

end GoproNative
