import ConnectionPool.Digest.SipHash
import ConnectionPool.Driver.Basic

/-!
# Type codes

The type code of a login is the hash of its three parts. Each part is framed: its UTF-8 bytes are
followed by the byte 0xFF, which no UTF-8 text contains, so the parts cannot run into each other.
-/

set_option autoImplicit false

namespace ConnectionPool

def utf8 (text : String) : List UInt8 := text.toList.flatMap String.utf8EncodeChar

def framed (text : String) : List UInt8 := utf8 text ++ [0xFF]

def Login.framed (l : Login) : List UInt8 :=
  ConnectionPool.framed l.url ++ ConnectionPool.framed l.credentials.username ++
    ConnectionPool.framed l.credentials.password

def Login.typeCode (l : Login) : UInt64 := SipHash.hash l.framed

end ConnectionPool
