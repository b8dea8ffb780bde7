import TypedClient.Fault
import TypedClient.Text.Pieces
import TypedClient.Url.Domain

/-!
Hosts of urls: domains and addresses. Of an address only its validity matters here.
-/

set_option autoImplicit false

namespace TypedClient.Url

open Text (hexDigit? splitAt)

/-- A number of an IPv4 address: hexadecimal behind `0x`, octal behind `0`, else decimal. -/
def ipv4Number? (text : List Char) : Option Nat :=
  let value (base : Nat) (digits : List Char) : Option Nat :=
    digits.foldlM (fun value digit => do
      let digit ← hexDigit? digit
      if digit < base then some (value * base + digit) else none) 0
  match text with
  | [] => none
  | '0' :: 'x' :: digits => value 16 digits
  | '0' :: 'X' :: digits => value 16 digits
  | ['0'] => some 0
  | '0' :: digits => value 8 digits
  | digits => value 10 digits

def domainParts (domain : List Char) : List (List Char) :=
  let parts := splitAt (· == '.') domain
  if parts.length > 1 && parts.getLast? == some [] then parts.dropLast else parts

def endsInNumber (domain : List Char) : Bool :=
  match (domainParts domain).getLast? with
  | none => false
  | some last => (!last.isEmpty && last.all Char.isDigit) || (ipv4Number? last).isSome

/-- Up to four numbers of a byte each, of which the last stands for all bytes that are left. -/
def isIpv4 (domain : List Char) : Bool :=
  match (domainParts domain).mapM ipv4Number? with
  | none => false
  | some numbers =>
    match numbers.reverse with
    | [] => false
    | last :: first =>
      numbers.length ≤ 4 && first.all (· < 256) && last < Nat.pow 256 (5 - numbers.length)

def isDecimalByte (text : List Char) : Bool :=
  match text with
  | [] => false
  | ['0'] => true
  | '0' :: _ => false
  | _ => text.all Char.isDigit && text.length ≤ 3 && Text.digitsValue text < 256

def isDottedBytes (text : List Char) : Bool :=
  let parts := splitAt (· == '.') text
  parts.length == 4 && parts.all isDecimalByte

/-- Pieces of an IPv6 address behind `count` others, one of which may have been left out. -/
def isIpv6Tail : Nat → Nat → Bool → List Char → Bool
  | _, count, compressed, [] => compressed || count == 8
  | 0, _, _, _ => false
  | limit + 1, count, compressed, ':' :: rest =>
    count != 8 && !compressed && isIpv6Tail limit (count + 1) true rest
  | limit + 1, count, compressed, text =>
    let digits := (text.take 4).takeWhile fun c => (hexDigit? c).isSome
    if count == 8 then false
    else match text.drop digits.length with
      | [] => isIpv6Tail limit (count + 1) compressed []
      | '.' :: _ =>
        !digits.isEmpty && decide (count ≤ 6) && isDottedBytes text &&
          (compressed || count == 6)
      | ':' :: rest => !rest.isEmpty && isIpv6Tail limit (count + 1) compressed rest
      | _ => false

def isIpv6 (text : List Char) : Bool :=
  match text with
  | ':' :: ':' :: rest => isIpv6Tail text.length 1 true rest
  | ':' :: _ => false
  | [] => false
  | [_] => false
  | _ => isIpv6Tail text.length 0 false text

def isForbiddenInHost (c : Char) : Bool :=
  "\x00\t\n\r #/:<>?@[\\]^|".toList.contains c

def checkBracketed (host : List Char) : Except UrlFault Unit :=
  let inner := host.drop 1
  if inner.getLast? == some ']' && isIpv6 inner.dropLast then .ok () else .error .invalidIpv6

def specialHost (host : List Char) : Except UrlFault (List Char) :=
  if host.head? == some '[' then (checkBracketed host).map fun _ => host
  else match domain? host with
    | none => .error .invalidDomain
    | some [] => .error .emptyHost
    | some domain =>
      if endsInNumber domain && !isIpv4 domain then .error .invalidIpv4 else .ok domain

def checkOpaque (host : List Char) : Except UrlFault Unit :=
  if host.head? == some '[' then checkBracketed host
  else if host.any isForbiddenInHost then .error .invalidDomainCharacter
  else .ok ()

end TypedClient.Url
