import HttpBackEnd.Library.Transition
import HttpBackEnd.Library.QueryString
import HttpBackEnd.Library.Resp
import HttpBackEnd.Library.Scanner
import HttpBackEnd.Library.Ledger
import HttpBackEnd.Library.Base64
import HttpBackEnd.Library.Deframer
import HttpBackEnd.Json.Reader
import HttpBackEnd.Json.Schema
import HttpBackEnd.Json.Writer
import HttpBackEnd.Json.RoundTrip
import HttpBackEnd.Json.Codec
import HttpBackEnd.Nginx.Request
import HttpBackEnd.Nginx.RequestBody
import HttpBackEnd.Nginx.Uri
import HttpBackEnd.Nginx.Chunked
import HttpBackEnd.Nginx.BodyFilter
import HttpBackEnd.Nginx.BodyRead
import HttpBackEnd.Nginx.EventPipe
import HttpBackEnd.Nginx.PipeBody
import HttpBackEnd.Nginx.PipeLoop
import HttpBackEnd.Nginx.PipeRun
import HttpBackEnd.Nginx.PipeBuffer
import HttpBackEnd.Nginx.Keepalive
import HttpBackEnd.Redis.Reply
import HttpBackEnd.Redis.Exchange
import HttpBackEnd.Redis.Framing
import HttpBackEnd.Redis.Pool
import HttpBackEnd.Redis.Locations
import HttpBackEnd.Login.Handlers
import HttpBackEnd.Login.Connection
import HttpBackEnd.Login.Flow
import HttpBackEnd.Login.Follow
import HttpBackEnd.Login.Success
import HttpBackEnd.Login.Safety
import HttpBackEnd.Login.Client
import HttpBackEnd.Login.Answer
import HttpBackEnd.Login.Authentication
import HttpBackEnd.Login.Secrecy
import HttpBackEnd.Login.Body
import HttpBackEnd.Login.BodyArrival
import HttpBackEnd.Login.WxRequest
import HttpBackEnd.Login.RedisSet
import HttpBackEnd.Login.RedisVerdict
import HttpBackEnd.Login.Sessions
import HttpBackEnd.Login.Arguments
import HttpBackEnd.Login.WxReply
import HttpBackEnd.Clients.Conversions
import HttpBackEnd.Clients.RedisInstance
import HttpBackEnd.Clients.RedisOwnership
import HttpBackEnd.Clients.RedisUtil
import HttpBackEnd.Clients.MySqlDBInstance
import HttpBackEnd.Clients.MysqlHelper
import HttpBackEnd.OpenSsl.Encode
import HttpBackEnd.OpenSsl.BioB64
import HttpBackEnd.OpenSsl.RoundTrip
import HttpBackEnd.Conf.Settings
import HttpBackEnd.Conf.Parse
import HttpBackEnd.Conf.Port
import HttpBackEnd.Conf.OwnDirective
import HttpBackEnd.Library.LittleEndian
import HttpBackEnd.Library.Packing
import HttpBackEnd.Rds.JsonOutput
import HttpBackEnd.Rds.JsonProcess
import HttpBackEnd.Rds.Table
import HttpBackEnd.Rds.TableJson
import HttpBackEnd.Rds.Delivery
import HttpBackEnd.Rds.ReadBack
import HttpBackEnd.Rds.ConnectionPool
import HttpBackEnd.Rds.JsonSafety
